import Denn.Core.Statements
import Denn.Proxy.CacheKey

/-!
# The search query to IGDB

The body of a search holds the search text between double quotes, in front of the fixed statements.
-/

namespace Denn.Proxy

open Denn.Core CacheKey

/-- The statements after the search. -/
def fixedStatements (fields types limit offset : List Char) : List (List Char) :=
  ["fields ".toList ++ fields, "where game_type = (".toList ++ types ++ ")".toList,
    "limit ".toList ++ limit, "offset ".toList ++ offset]

def igdbStatements (limit offset : ℤ) : List (List Char) :=
  fixedStatements Igdb.defaultFields.toList Igdb.includedGameTypes.toList (itoa limit).toList
    (itoa offset).toList

/-- What a search is to consist of. -/
def searchStatements (literal : List Char) (limit offset : ℤ) : List (List Piece) :=
  (plainText "search ".toList ++ [.literal literal]) :: (igdbStatements limit offset).map plainText

lemma toList_searchBody (query fields types limit offset : String) :
    ("search \"" ++ query ++ "\"; fields " ++ fields ++ "; where game_type = (" ++ types
        ++ "); limit " ++ limit ++ "; offset " ++ offset ++ ";").toList =
      "search ".toList ++ '"' :: (query.toList ++ '"' :: ';' ::
        clauses (fixedStatements fields.toList types.toList limit.toList offset.toList)) := by
  have hsearch : "search \"".toList = "search ".toList ++ ['"'] := by decide
  have hfields : "\"; fields ".toList = '"' :: ';' :: ' ' :: "fields ".toList := by decide
  have hwhere : "; where game_type = (".toList = ';' :: ' ' :: "where game_type = (".toList := by
    decide
  have hlimit : "); limit ".toList = ")".toList ++ ';' :: ' ' :: "limit ".toList := by decide
  have hoffset : "; offset ".toList = ';' :: ' ' :: "offset ".toList := by decide
  have hend : ";".toList = [';'] := by decide
  simp only [String.toList_append, hsearch, hfields, hwhere, hlimit, hoffset, hend, clauses,
    fixedStatements, List.flatMap_cons, List.flatMap_nil, List.append_assoc, List.cons_append,
    List.nil_append]

lemma notMem_toList_append {c : Char} {s t : String} (hs : c ∉ s.toList) (ht : c ∉ t.toList) :
    c ∉ (s ++ t).toList := by
  rw [String.toList_append, List.mem_append, not_or]
  exact ⟨hs, ht⟩

lemma notMem_defaultFields {c : Char} (hc : c = ';' ∨ c = '"') : c ∉ Igdb.defaultFields.toList := by
  refine notMem_toList_append (notMem_toList_append (notMem_toList_append (notMem_toList_append ?_ ?_)
    ?_) ?_) ?_ <;> rcases hc with rfl | rfl <;> decide +kernel

/-- The fixed statements hold neither semicolons nor quotes. -/
lemma notMem_igdbStatements (limit offset : ℤ) {c : Char} (hc : c = ';' ∨ c = '"') :
    ∀ text ∈ igdbStatements limit offset, c ∉ text := by
  have hitoa : ∀ i : ℤ, c ∉ (itoa i).toList := by
    intro i
    rcases hc with rfl | rfl <;> exact notMem_itoa (by decide) (by decide) i
  have hfields := notMem_defaultFields hc
  have hkeyword : c ∉ "fields ".toList ∧ c ∉ "where game_type = (".toList ∧ c ∉ ")".toList ∧
      c ∉ "limit ".toList ∧ c ∉ "offset ".toList ∧ c ∉ Igdb.includedGameTypes.toList := by
    rcases hc with rfl | rfl <;> decide
  obtain ⟨hfields', hwhere, hend, hlimit, hoffset, htypes⟩ := hkeyword
  intro text htext
  rw [igdbStatements, fixedStatements] at htext
  generalize Igdb.defaultFields.toList = fields at *
  simp only [List.mem_cons, List.not_mem_nil, or_false] at htext
  rcases htext with rfl | rfl | rfl | rfl
  · exact mt List.mem_append.mp (not_or.mpr ⟨hfields', hfields⟩)
  · exact mt List.mem_append.mp
      (not_or.mpr ⟨mt List.mem_append.mp (not_or.mpr ⟨hwhere, htypes⟩), hend⟩)
  · exact mt List.mem_append.mp (not_or.mpr ⟨hlimit, hitoa limit⟩)
  · exact mt List.mem_append.mp (not_or.mpr ⟨hoffset, hitoa offset⟩)

variable (toLower : Char → Char) (query : String) (limit offset : ℤ)

lemma body_searchGames :
    ∃ body, (Igdb.searchGames toLower query limit offset).body = some body ∧
      body.toList = "search ".toList ++ '"' ::
        (query.toList ++ '"' :: ';' :: clauses (igdbStatements limit offset)) :=
  ⟨_, rfl, toList_searchBody query _ _ _ _⟩

/-- A text that fits a literal is read as it stands, in front of the fixed statements. -/
lemma readStatements_searchBody {literal : List Char} (hfits : fitsLiteral false literal = true) :
    readStatements ("search ".toList ++ '"' ::
        (literal ++ '"' :: ';' :: clauses (igdbStatements limit offset))) =
      some (searchStatements literal limit offset) := by
  have hblank : ∀ text ∈ igdbStatements limit offset, text.head?.any (· ≠ ' ') := by
    intro text htext
    rw [igdbStatements, fixedStatements] at htext
    generalize Igdb.defaultFields.toList = fields at htext
    simp only [List.mem_cons, List.not_mem_nil, or_false] at htext
    rcases htext with rfl | rfl | rfl | rfl <;> rfl
  exact readStatements_of_fits (by decide) (by decide) (by decide) hfits
    (fun text htext => ⟨notMem_igdbStatements limit offset (.inl rfl) text htext,
      notMem_igdbStatements limit offset (.inr rfl) text htext⟩) hblank

/-- There is no quote behind the literal. -/
lemma notMem_clauses : '"' ∉ ';' :: clauses (igdbStatements limit offset) := by
  intro hmem
  rcases List.mem_cons.mp hmem with hc | hmem
  · exact absurd hc (by decide)
  · obtain ⟨text, htext, hc⟩ := List.mem_flatMap.mp hmem
    rcases List.mem_cons.mp hc with hc | hc
    · exact absurd hc (by decide)
    · rcases List.mem_append.mp hc with hc | hc
      · exact notMem_igdbStatements limit offset (.inr rfl) text htext hc
      · exact absurd (List.mem_singleton.mp hc) (by decide)

/-- A text that is at least as long as the one before the last quote is that one. -/
lemma eq_of_append_quote {literal text rest tail : List Char} (htail : '"' ∉ tail)
    (heq : text ++ '"' :: tail = literal ++ '"' :: rest) (hle : text.length ≤ literal.length) :
    literal = text := by
  obtain ⟨more, rfl⟩ := List.prefix_of_prefix_length_le (List.prefix_append text ('"' :: tail))
    (heq ▸ List.prefix_append literal ('"' :: rest)) hle
  rw [List.append_assoc, List.append_cancel_left_eq] at heq
  cases more with
  | nil => rw [List.append_nil]
  | cons c more =>
    obtain ⟨-, rfl⟩ := List.cons.inj heq
    exact absurd (List.mem_append_right _ List.mem_cons_self) htail

/-- The body of a search is read as the search and the fixed statements exactly if the search text fits
    a literal: as it stands, if it has no quote that is not escaped and does not end in an escape; with
    its escapes resolved, if it has neither quotes nor backslashes. -/
theorem searchGames_reads_iff :
    ∃ body, (Igdb.searchGames toLower query limit offset).body = some body ∧
      (readStatements body.toList = some (searchStatements query.toList limit offset) ↔
        fitsLiteral false query.toList = true) ∧
      ((∃ literal, readStatements body.toList = some (searchStatements literal limit offset) ∧
          unescape false literal = query.toList) ↔
        '"' ∉ query.toList ∧ '\\' ∉ query.toList) := by
  obtain ⟨body, hbody, htext⟩ := body_searchGames toLower query limit offset
  have hread : ∀ literal,
      readStatements body.toList = some (searchStatements literal limit offset) →
      ∃ rest, query.toList ++ '"' :: ';' :: clauses (igdbStatements limit offset) =
        literal ++ '"' :: rest ∧ fitsLiteral false literal = true := by
    intro literal hread
    rw [htext] at hread
    exact literal_of_readStatements (by decide) (by decide) (by decide) hread rfl
  have hfits : fitsLiteral false query.toList = true →
      readStatements body.toList = some (searchStatements query.toList limit offset) := by
    intro hfits
    rw [htext]
    exact readStatements_searchBody limit offset hfits
  refine ⟨body, hbody, ⟨fun h => ?_, hfits⟩, ?_, ?_⟩
  · obtain ⟨-, -, hquery⟩ := hread _ h
    exact hquery
  · rintro ⟨literal, hliteral, hunescape⟩
    obtain ⟨rest, heq, hquery⟩ := hread literal hliteral
    have hle := length_unescape_le false literal
    rw [hunescape] at hle
    obtain rfl := eq_of_append_quote (notMem_clauses limit offset) heq hle
    have hescape := unescape_eq_self_iff.mp hunescape
    exact ⟨notMem_of_fitsLiteral hquery hescape, hescape⟩
  · rintro ⟨hquote, hescape⟩
    exact ⟨query.toList, hfits (fitsLiteral_of_notMem hquote hescape),
      unescape_eq_self_iff.mpr hescape⟩

/-- A search text with a quote, which both handlers let through. -/
def quotedQuery : String := "Zelda\"; where id > 0; search \"x"

theorem searchGames_quotedQuery :
    trimSpace quotedQuery = quotedQuery ∧ quotedQuery ≠ "" ∧ quotedQuery.length ≤ 80 ∧
    ∃ body, (Igdb.searchGames id quotedQuery 10 0).body = some body ∧
      ¬ ∃ literal, readStatements body.toList = some (searchStatements literal 10 0) := by
  obtain ⟨body, hbody, htext⟩ := body_searchGames id quotedQuery 10 0
  refine ⟨by decide, by decide, by decide, body, hbody, ?_⟩
  have hfront : (("search ".toList ++ '"' :: (quotedQuery.toList ++ ['"', ';'])).foldl
      Reader.read {}) = ⟨[plainText "search ".toList ++ [.literal "Zelda".toList],
        plainText " where id > 0".toList, plainText " search ".toList ++ [.literal ['x']]], [],
        .outside⟩ := by decide +kernel
  have hsplit : body.toList = "search ".toList ++ '"' :: (quotedQuery.toList ++ ['"', ';']) ++
      clauses (igdbStatements 10 0) := by simp [htext]
  rintro ⟨literal, hread⟩
  rw [hsplit, readStatements, List.foldl_append, hfront, foldl_read_clauses _ fun text htext =>
    ⟨notMem_igdbStatements 10 0 (.inl rfl) text htext,
      notMem_igdbStatements 10 0 (.inr rfl) text htext⟩, Option.ite_none_right_eq_some] at hread
  -- three statements instead of one stand before the fixed ones
  have hlength := congrArg List.length (Option.some.inj hread.2)
  simp only [searchStatements, List.length_map, List.length_append, List.length_cons,
    List.length_nil] at hlength
  omega

end Denn.Proxy
