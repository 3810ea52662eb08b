import Denn.Web.ExploreQuery

/-!
# Reading a query back

A query that is written into the URL is read from it with the same values, and the query of a URL is
written and read again without a change, as long as no value is empty and every text is well-formed.
-/

namespace Denn.Web

open Core

/-! ### Reading what was written -/

lemma readText_routed (q : ListItemQuery) (key : ParamKey) :
    readText (routed q.serializeQueryToParams) key.name
      = ((q.param key).map (toWellFormed false)).bind nonEmpty := by
  rw [readText, q.get?_routed]

/-- A text that can be an element of a filter. -/
structure IsElement (text : Units) : Prop where
  nonempty : text ≠ []
  noComma : 44 ∉ text
  trimmed : trimUnits text = text

lemma isWellFormed_joinCommas {texts : List Units} (h : ∀ text ∈ texts, IsWellFormed text) :
    IsWellFormed (joinCommas texts) := by
  induction texts with
  | nil => rfl
  | cons text texts ih =>
    obtain ⟨htext, htexts⟩ := List.forall_mem_cons.mp h
    cases texts with
    | nil => simpa [joinCommas] using htext
    | cons next texts =>
      have hjoin : joinCommas (text :: next :: texts) = text ++ 44 :: joinCommas (next :: texts) := by
        simp [joinCommas]
      have hrest : toWellFormed false (joinCommas (next :: texts)) = joinCommas (next :: texts) :=
        ih htexts
      have hfirst : toWellFormed false text = text := htext
      rw [IsWellFormed, hjoin, toWellFormed_append_cons (by decide) false _ _ (by simp), hfirst, hrest]

lemma joinCommas_ne_nil {texts : List Units} (hne : texts ≠ []) (h : ∀ text ∈ texts, text ≠ []) :
    joinCommas texts ≠ [] := by
  cases texts with
  | nil => exact absurd rfl hne
  | cons text texts =>
    have htext := h text List.mem_cons_self
    cases texts <;> simp [joinCommas, htext]

lemma parts_joinCommas {texts : List Units} (hne : texts ≠ []) (h : ∀ text ∈ texts, IsElement text) :
    parts (joinCommas texts) = texts := by
  have hsplit : (joinCommas texts).splitOn 44 = texts :=
    List.splitOn_intercalate 44 (fun text hmem => (h text hmem).noComma) hne
  have htrim : texts.map trimUnits = texts :=
    (List.map_congr_left fun text hmem => (h text hmem).trimmed).trans (List.map_id _)
  rw [parts, hsplit, htrim]
  exact List.filter_eq_self.mpr fun text hmem => by simpa using (h text hmem).nonempty

lemma ofParts_written {texts : List Units} (hne : texts ≠ []) :
    (FilterValue.ofParts texts).map FilterValue.written = some texts := by
  cases texts with
  | nil => exact absurd rfl hne
  | cons text texts => cases texts <;> rfl

namespace ListItemQuery

/-- The values are not empty, the elements of a filter have no comma and no blanks around them, and
    the texts are well-formed. -/
structure Writable (q : ListItemQuery) : Prop where
  filters : ∀ field value, q.filters.get? field = some (some value) →
    value.written ≠ [] ∧ ∀ text ∈ value.written, IsElement text ∧ IsWellFormed text
  rangeFilters : ∀ field value, q.rangeFilters.get? field = some (some value) →
    value.written ≠ [] ∧ IsWellFormed value.written
  page : 1 ≤ q.page.value

variable {q : ListItemQuery}

lemma reread_filters (h : q.Writable) (field : FilterField) :
    ((reread q).filters.get? field).join.map FilterValue.written
      = (q.filters.get? field).join.map FilterValue.written := by
  rw [reread, get?_filters, show filterName field.name = (ParamKey.filter field).name from rfl,
    readText_routed, param]
  cases hvalue : (q.filters.get? field).join with
  | none => rfl
  | some value =>
    obtain ⟨hne, htexts⟩ := h.filters field value (Option.join_eq_some_iff.mp hvalue)
    have hjoin := joinCommas_ne_nil hne fun text hmem => (htexts text hmem).1.nonempty
    have hwell : toWellFormed false (joinCommas value.written) = joinCommas value.written :=
      isWellFormed_joinCommas fun text hmem => (htexts text hmem).2
    have hparts := parts_joinCommas hne fun text hmem => (htexts text hmem).1
    rw [Option.bind_some, nonEmpty, if_neg hjoin, Option.map_some, hwell, Option.bind_some, nonEmpty,
      if_neg hjoin, Option.map_some, Option.join_some, hparts, ofParts_written hne, Option.map_some]

lemma reread_rangeFilters (h : q.Writable) (field : RangeFilterField) :
    ((reread q).rangeFilters.get? field).join.map RangeValue.written
      = (q.rangeFilters.get? field).join.map RangeValue.written := by
  rw [reread, get?_rangeFilters, show filterName field.name = (ParamKey.range field).name from rfl,
    readText_routed, param]
  cases hvalue : (q.rangeFilters.get? field).join with
  | none => rfl
  | some value =>
    obtain ⟨hne, hwell⟩ := h.rangeFilters field value (Option.join_eq_some_iff.mp hvalue)
    have hwell : toWellFormed false value.written = value.written := hwell
    rw [Option.bind_some, nonEmpty, if_neg hne, Option.map_some, hwell, Option.bind_some, nonEmpty,
      if_neg hne]
    rfl

/-- What the page reads of a parameter whose text is well-formed. -/
lemma getParam_routed (key : ParamKey) (hwell : ∀ text, q.param key = some text → IsWellFormed text) :
    (getParam (routed q.serializeQueryToParams).entries key.name).map decodeRouteSearchValue
      = q.param key := by
  rw [getParam_entries, get?_routed]
  cases hparam : q.param key with
  | none => rfl
  | some text => exact congrArg some (hwell text hparam)

lemma parseSort_routed (q : ListItemQuery) :
    parseSort (getParam (routed q.serializeQueryToParams).entries (units "sort")) = q.sort := by
  have hwell : ∀ text, q.param .sort = some text → IsWellFormed text := by
    intro text htext
    rw [param, sortText] at htext
    split_ifs at htext
    rw [← Option.some.inj htext]
    refine isWellFormed_joinCommas fun token htoken => isWellFormed_of_lt fun u hu => ?_
    obtain ⟨clause, -, rfl⟩ := List.mem_map.mp htoken
    exact of_decide_eq_true (List.all_eq_true.mp (readClause_token clause).2.2 u hu)
  rw [parseSort, show units "sort" = ParamKey.sort.name from rfl, getParam_routed .sort hwell, param,
    sortText]
  cases hsort : q.sort with
  | nil => rfl
  | cons clause clauses =>
    have hread : ((clause :: clauses).map SortClause.token).filterMap readClause = clause :: clauses := by
      rw [List.filterMap_map]
      exact (List.filterMap_congr fun c _ => (readClause_token c).1).trans (List.filterMap_some)
    have hsplit : (joinCommas ((clause :: clauses).map SortClause.token)).splitOn 44 =
        (clause :: clauses).map SortClause.token := by
      refine List.splitOn_intercalate 44 (fun token htoken => ?_) (by simp)
      obtain ⟨c, -, rfl⟩ := List.mem_map.mp htoken
      exact (readClause_token c).2.1
    have hne : joinCommas ((clause :: clauses).map SortClause.token) ≠ [] := by
      intro hnil
      rw [hnil] at hsplit
      rw [← hsplit] at hread
      exact absurd hread (by simp [readClause, trimUnits])
    rw [if_pos (by simp)]
    simp only [if_neg hne, hsplit, hread]

lemma isWellFormed_numeral (n : ℕ) : IsWellFormed (numeral n) := by
  refine isWellFormed_of_lt fun u hu => ?_
  rcases mem_numeral hu with hdigit | hmem
  · simp only [isDigitUnit, Bool.and_eq_true, decide_eq_true_eq] at hdigit
    omega
  · simp only [List.mem_cons, List.not_mem_nil, or_false] at hmem
    omega

/-- What the page reads of a parameter that is a number. -/
lemma readNumber_routed {key : ParamKey} {n : Option Whole} (hpos : ∀ m ∈ n, 0 < m.value)
    (hparam : q.param key = n.map fun m => numeral m.value) :
    readNumber (getParam (routed q.serializeQueryToParams).entries key.name)
      = n.elim (toNumber []) fun m => some m.toDouble := by
  have hraw := q.getParam_routed key fun text htext => by
    rw [hparam] at htext
    obtain ⟨m, -, rfl⟩ := Option.map_eq_some_iff.mp htext
    exact isWellFormed_numeral m.value
  rw [hparam] at hraw
  rw [readNumber]
  cases hget : getParam (routed q.serializeQueryToParams).entries key.name with
  | none =>
    rw [hget] at hraw
    obtain rfl : n = none := by simpa using hraw.symm
    rfl
  | some raw =>
    rw [hget] at hraw
    obtain ⟨m, rfl, hdecoded⟩ := Option.map_eq_some_iff.mp hraw.symm
    rw [Option.elim_some, Option.elim_some, ← hdecoded, toNumber_numeral (hpos m rfl)]

lemma parsePage_routed (h : 1 ≤ q.page.value) :
    parsePage (getParam (routed q.serializeQueryToParams).entries (units "page")) = q.page := by
  have hread : readNumber (getParam (routed q.serializeQueryToParams).entries (units "page"))
      = (if q.page.value > 1 then some q.page else none).elim (toNumber []) fun m => some m.toDouble := by
    refine @readNumber_routed q .page _ (fun m hm => ?_) ?_
    · split_ifs at hm with hlarge
      · exact Option.some.inj hm ▸ h
      · exact absurd hm (by simp)
    · rw [param, pageText]
      split_ifs <;> rfl
  rw [parsePage, hread]
  split_ifs with hlarge
  · have hone : (1 : ℚ) ≤ q.page.toDouble.value := by
      change (1 : ℚ) ≤ (q.page.value : ℚ)
      exact_mod_cast h
    simp only [Option.elim_some, if_pos hone, Whole.floor_toDouble]
  · have hvalue : q.page.value = 1 := by omega
    rw [show q.page = Whole.one from Whole.ext hvalue]
    decide +kernel

lemma pageSize_value_le (size : PageSize) : size.value ≤ 2 ^ 53 := by
  cases size <;> decide

lemma parsePageSize_routed (q : ListItemQuery) :
    parsePageSize (getParam (routed q.serializeQueryToParams).entries (units "page_size"))
      = q.pageSize := by
  have hread : readNumber (getParam (routed q.serializeQueryToParams).entries (units "page_size"))
      = (if q.pageSize ≠ .standard then
          some (Whole.ofNat q.pageSize.value (pageSize_value_le q.pageSize)) else none).elim
          (toNumber []) fun m => some m.toDouble := by
    refine @readNumber_routed q .pageSize _ (fun m hm => ?_) ?_
    · split_ifs at hm with hother
      · rw [← Option.some.inj hm]
        change 0 < q.pageSize.value
        cases q.pageSize <;> decide
      · exact absurd hm (by simp)
    · rw [param, pageSizeText]
      split_ifs <;> rfl
  rw [parsePageSize, hread]
  cases q.pageSize <;> decide +kernel

lemma groupBy_routed (q : ListItemQuery) :
    ((getParam (routed q.serializeQueryToParams).entries (units "group_by")).map
      decodeRouteSearchValue).bind (ofName GroupByField.all GroupByField.name) = q.groupBy := by
  have hwell : ∀ text, q.param .groupBy = some text → IsWellFormed text := by
    intro text htext
    obtain ⟨field, -, rfl⟩ := Option.map_eq_some_iff.mp htext
    cases field <;> decide
  rw [show units "group_by" = ParamKey.groupBy.name from rfl, q.getParam_routed .groupBy hwell, param]
  cases q.groupBy with
  | none => rfl
  | some field => exact ofName_groupByField field

/-- A query is read from the URL as it was written. -/
theorem Writable.reread_same (h : q.Writable) : Same (reread q) q where
  filters := reread_filters h
  rangeFilters := reread_rangeFilters h
  sort := parseSort_routed q
  groupBy := groupBy_routed q
  page := parsePage_routed h.page
  pageSize := parsePageSize_routed q

end ListItemQuery

/-! ### Queries that were read -/

/-- The texts of a query are well-formed. -/
structure WellFormed (q : ListItemQuery) : Prop where
  filters : ∀ field value, q.filters.get? field = some (some value) →
    ∀ text ∈ value.written, IsWellFormed text
  rangeFilters : ∀ field value, q.rangeFilters.get? field = some (some value) →
    IsWellFormed value.written

lemma trimUnits_trimUnits (text : Units) : trimUnits (trimUnits text) = trimUnits text := by
  set body := text.dropWhile isBlankPoint with hbody
  have hfront : body.dropWhile isBlankPoint = body := List.dropWhile_idempotent isBlankPoint text
  have htrim : trimUnits text = body.rdropWhile isBlankPoint := rfl
  have hhead : (body.rdropWhile isBlankPoint).dropWhile isBlankPoint = body.rdropWhile isBlankPoint := by
    cases hrest : body.rdropWhile isBlankPoint with
    | nil => rfl
    | cons u rest =>
      obtain ⟨back, hback⟩ := List.rdropWhile_prefix isBlankPoint body
      rw [hrest, List.cons_append] at hback
      rw [← hback, List.dropWhile_eq_self_iff] at hfront
      exact List.dropWhile_cons_of_neg (hfront (by simp))
  rw [htrim, trimUnits, hhead]
  exact List.rdropWhile_idempotent isBlankPoint body

lemma notMem_of_mem_splitOn {u : ℕ} {text piece : Units} (h : piece ∈ text.splitOn u) : u ∉ piece := by
  induction text generalizing piece with
  | nil =>
    rw [List.splitOn_nil, List.mem_singleton] at h
    simp [h]
  | cons v text ih =>
    rw [List.splitOn_cons_eq_if_modifyHead] at h
    split_ifs at h with hsplit
    · rcases List.mem_cons.mp h with rfl | hmem
      · simp
      · exact ih hmem
    · cases hpieces : text.splitOn u with
      | nil => simp [hpieces] at h
      | cons first pieces =>
        rw [hpieces] at ih
        rw [hpieces, List.modifyHead_cons, List.mem_cons] at h
        rcases h with rfl | hmem
        · have hv : u ≠ v := fun heq => hsplit (by simp [heq])
          simpa [hv] using ih List.mem_cons_self
        · exact ih (List.mem_cons_of_mem first hmem)

lemma isElement_of_mem_parts {value text : Units} (h : text ∈ parts value) : IsElement text := by
  obtain ⟨hmem, hne⟩ := List.mem_filter.mp h
  obtain ⟨piece, hpiece, rfl⟩ := List.mem_map.mp hmem
  refine ⟨by simpa using hne, fun hcomma => notMem_of_mem_splitOn hpiece ?_, trimUnits_trimUnits piece⟩
  exact (List.dropWhile_suffix _).subset ((List.rdropWhile_prefix _ _).subset hcomma)

lemma written_of_ofParts {texts : List Units} {value : FilterValue}
    (h : FilterValue.ofParts texts = some value) : value.written = texts ∧ texts ≠ [] := by
  have hne : texts ≠ [] := by
    rintro rfl
    exact absurd h (by simp [FilterValue.ofParts])
  refine ⟨?_, hne⟩
  have hwritten := ofParts_written hne
  rw [h] at hwritten
  exact Option.some.inj hwritten

lemma one_le_parsePage (raw : Option Units) : 1 ≤ (parsePage raw).value := by
  rw [parsePage]
  cases readNumber raw with
  | none => exact le_rfl
  | some n =>
    dsimp only
    split_ifs with hlarge
    · change 1 ≤ ⌊n.value⌋.toNat
      have hfloor : 1 ≤ ⌊n.value⌋ := Int.le_floor.mpr (by exact_mod_cast hlarge)
      omega
    · exact le_rfl

lemma writable_parse {params : List (Units × Units)} (h : WellFormed (parseQueryFromParams params)) :
    (parseQueryFromParams params).Writable where
  filters := by
    intro field value hvalue
    obtain ⟨raw, -, -, hparts⟩ := mem_filterEntries.mp (OrderedMap.get?_ofList.mp hvalue).mem
    obtain ⟨hwritten, hne⟩ := written_of_ofParts hparts.symm
    refine ⟨hwritten ▸ hne, fun text hmem => ⟨?_, h.filters field value hvalue text hmem⟩⟩
    rw [hwritten] at hmem
    exact isElement_of_mem_parts hmem
  rangeFilters := by
    intro field value hvalue
    obtain ⟨raw, -, hne, htext⟩ := mem_rangeEntries.mp (OrderedMap.get?_ofList.mp hvalue).mem
    refine ⟨?_, h.rangeFilters field value hvalue⟩
    rw [Option.some.inj htext]
    exact hne
  page := one_le_parsePage _

/-- The query of a list page survives the URL: what is written is read again, whatever the texts look
    like, and the query of a URL, written and read again, is the same query. -/
theorem explore_query_survives :
    (∀ q : ListItemQuery, q.Writable → Same (reread q) q) ∧
      ∀ params, WellFormed (parseQueryFromParams params) →
        Same (reread (parseQueryFromParams params)) (parseQueryFromParams params) :=
  ⟨fun _ h => h.reread_same, fun _ h => (writable_parse h).reread_same⟩

/-- Elements that look like JSON, two sort clauses and a page with an exponent. -/
def sampleQuery : ListItemQuery where
  filters := .ofList [(.contextStatus, some (.texts [units "2", units "\"true\""]))]
  rangeFilters := .ofList [(.addedAtGte, some (.text (units "null")))]
  sort := [⟨.addedAt, .desc⟩, ⟨.artist, .asc⟩]
  groupBy := some .artist
  page := .ofNat (2 ^ 53) le_rfl
  pageSize := .fifty

theorem explore_query_survives_sample :
    Same (reread sampleQuery) sampleQuery ∧
      Same (reread (parseQueryFromParams [(units "filter[added_by]", units " a,,b")]))
        (parseQueryFromParams [(units "filter[added_by]", units " a,,b")]) := by
  refine ⟨explore_query_survives.1 sampleQuery ⟨?_, ?_, ?_⟩, explore_query_survives.2 _ ⟨?_, ?_⟩⟩
  · intro field value hvalue
    have hmem := List.mem_singleton.mp (OrderedMap.get?_ofList.mp hvalue).mem
    obtain rfl := Option.some.inj (Prod.mk.inj hmem).2
    refine ⟨by decide, fun text htext => ?_⟩
    have hcases : text = units "2" ∨ text = units "\"true\"" := by
      simpa [FilterValue.written] using htext
    rcases hcases with rfl | rfl
    · exact ⟨⟨by decide, by decide, by decide⟩, by decide⟩
    · exact ⟨⟨by decide, by decide, by decide⟩, by decide⟩
  · intro field value hvalue
    have hmem := List.mem_singleton.mp (OrderedMap.get?_ofList.mp hvalue).mem
    obtain rfl := Option.some.inj (Prod.mk.inj hmem).2
    exact ⟨by decide, by decide⟩
  · exact Nat.one_le_two_pow
  · intro field value hvalue text htext
    obtain ⟨raw, hraw, -, hparts⟩ := mem_filterEntries.mp (OrderedMap.get?_ofList.mp hvalue).mem
    rw [(written_of_ofParts hparts.symm).1] at htext
    obtain ⟨-, rfl⟩ := Prod.mk.inj (List.mem_singleton.mp hraw)
    revert text
    decide +kernel
  · intro field value hvalue
    obtain ⟨raw, hraw, -, hparts⟩ := mem_rangeEntries.mp (OrderedMap.get?_ofList.mp hvalue).mem
    obtain ⟨hname, -⟩ := Prod.mk.inj (List.mem_singleton.mp hraw)
    exact absurd hname (by cases field <;> decide)

/-! ### Values that do not survive -/

/-- A query that filters by the status. -/
def filteredBy (value : FilterValue) : ListItemQuery where
  filters := .ofList [(.contextStatus, some value)]
  rangeFilters := .empty
  sort := []
  groupBy := none
  page := .one
  pageSize := .standard

lemma get?_filteredBy {value value' : FilterValue} {field : FilterField}
    (h : (filteredBy value).filters.get? field = some (some value')) : value' = value := by
  have hmem := (OrderedMap.get?_ofList.mp h).mem
  rw [List.mem_singleton] at hmem
  exact Option.some.inj (Prod.mk.inj hmem).2

/-- The elements of the filters have no comma and no blanks around them, and the page is one. -/
structure Plain (q : ListItemQuery) : Prop where
  filters : ∀ field value, q.filters.get? field = some (some value) →
    ∀ text ∈ value.written, 44 ∉ text ∧ trimUnits text = text
  page : 1 ≤ q.page.value

lemma plain_filteredBy {value : FilterValue}
    (h : ∀ text ∈ value.written, 44 ∉ text ∧ trimUnits text = text) : Plain (filteredBy value) where
  filters := by
    intro field other hother
    rw [get?_filteredBy hother]
    exact h
  page := le_rfl

lemma not_same {q q' : ListItemQuery} (field : FilterField)
    (h : (q.filters.get? field).join.map FilterValue.written
      ≠ (q'.filters.get? field).join.map FilterValue.written) : ¬ Same q q' :=
  fun hsame => h (hsame.filters field)

/-- An empty value and an empty element are left out, a lone surrogate is replaced, also one that was
    read from the URL. -/
theorem empty_filter_lost :
    (Plain (filteredBy (.text [])) ∧ ¬ Same (reread (filteredBy (.text []))) (filteredBy (.text []))) ∧
    (Plain (filteredBy (.texts [[], units "done"])) ∧
      ¬ Same (reread (filteredBy (.texts [[], units "done"]))) (filteredBy (.texts [[], units "done"]))) ∧
    (Plain (filteredBy (.text [0xD800])) ∧
      ¬ Same (reread (filteredBy (.text [0xD800]))) (filteredBy (.text [0xD800]))) ∧
    ¬ Same (reread (parseQueryFromParams [(units "filter[added_by]", units "\"\\ud800\"")]))
      (parseQueryFromParams [(units "filter[added_by]", units "\"\\ud800\"")]) := by
  refine ⟨⟨plain_filteredBy (by decide), not_same .contextStatus ?_⟩,
    ⟨plain_filteredBy (by decide +kernel), not_same .contextStatus ?_⟩,
    ⟨plain_filteredBy (by decide), not_same .contextStatus ?_⟩, not_same .addedBy ?_⟩
  · decide +kernel
  · decide +kernel
  · decide +kernel
  · decide +kernel

end Denn.Web
