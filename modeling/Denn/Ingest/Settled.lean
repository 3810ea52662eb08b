import Denn.Ingest.Durations

/-!
# Reading back what the mappers write

The rows that a mapper leaves, serialized and mapped again, are the rows themselves, with new positions
in the old order.
-/

namespace Denn.Ingest

open Denn.Core

variable {slugify : String → String} {authors : Catalog slugify}

@[simp] lemma getD_omitEmpty (text : String) : (omitEmpty text).getD "" = text := by
  by_cases h : text = "" <;> simp [omitEmpty, Option.filter, h]

lemma pairwise_zipIdx {α : Type} (l : List α) (n : ℕ) :
    (l.zipIdx n).Pairwise fun a b => a.2 < b.2 := by
  induction l generalizing n with
  | nil => exact .nil
  | cons a l ih =>
    rw [List.zipIdx_cons]
    exact .cons (fun b hb => List.le_snd_of_mem_zipIdx hb) (ih (n + 1))

/-! ### Credits -/

/-- Credits with authors, in the order of their positions. -/
structure SettledCredits (authors : Catalog slugify) (rows : List CreditRow) : Prop where
  named : ∀ row ∈ rows, (authors.nameAt? row.author).isSome = true
  admits : creditConstraints.Admits rows
  ordered : rows.Pairwise fun a b => a.position < b.position

/-- The rows with their places as positions. -/
def renumberCredits (rows : List CreditRow) : List CreditRow :=
  rows.zipIdx.map fun entry => { entry.1 with position := entry.2 }

lemma serializeAuthors_renumberCredits (authors : Catalog slugify) (rows : List CreditRow) :
    serializeAuthors authors (renumberCredits rows) = serializeAuthors authors rows := by
  have hrows : rows.zipIdx.map Prod.fst = rows := List.zipIdx_map_fst 0 rows
  conv_rhs => rw [← hrows]
  rw [serializeAuthors, renumberCredits, serializeAuthors, List.map_map, List.map_map]
  rfl

lemma ordered_renumberCredits (rows : List CreditRow) :
    (renumberCredits rows).Pairwise fun a b => a.position < b.position :=
  List.pairwise_map.mpr (pairwise_zipIdx rows 0)

lemma nameOf?_text (catalog : Catalog slugify) (slug : String) :
    nameOf? (some (catalog.text slug)) = catalog.nameAt? slug := by
  rw [Catalog.text]
  cases catalog.nameAt? slug with
  | none => rfl
  | some name => exact dif_neg name.2

lemma namedCredits_serializeAuthors (authors : Catalog slugify) (rows : List CreditRow) :
    namedCredits (serializeAuthors authors rows)
      = rows.zipIdx.filterMap fun entry => (authors.nameAt? entry.1.author).map fun name =>
          ⟨name, entry.1.role, entry.2⟩ := by
  rw [namedCredits, serializeAuthors, List.zipIdx_map, List.filterMap_map]
  refine List.filterMap_congr fun entry _ => ?_
  simp only [Function.comp_apply, Prod.map_fst, nameOf?_text, Option.getD_some, Prod.map_snd, id_eq]

lemma exists_of_mem_namedCredits {rows : List CreditRow} {credit : Credit}
    (h : credit ∈ namedCredits (serializeAuthors authors rows)) :
    ∃ row ∈ rows, credit.role = row.role ∧ authors.nameAt? row.author = some credit.name := by
  rw [namedCredits_serializeAuthors] at h
  obtain ⟨entry, hentry, heq⟩ := List.mem_filterMap.mp h
  obtain ⟨name, hname, rfl⟩ := Option.map_eq_some_iff.mp heq
  exact ⟨entry.1, List.fst_mem_of_mem_zipIdx hentry, rfl, hname⟩

/-- The names of the rows have different slugs. -/
lemma separateCredits_serializeAuthors (authors : Catalog slugify) (rows : List CreditRow) :
    SeparateCredits slugify (serializeAuthors authors rows) := by
  intro a ha b hb hslug _
  obtain ⟨row, -, -, hrow⟩ := exists_of_mem_namedCredits ha
  obtain ⟨row', -, -, hrow'⟩ := exists_of_mem_namedCredits hb
  rw [Catalog.slugOf_eq hrow, Catalog.slugOf_eq hrow'] at hslug
  rw [hslug, hrow'] at hrow
  exact (Option.some.inj hrow).symm

lemma isSome_of_mem_creditNames {rows : List CreditRow} {name : Name}
    (h : name ∈ creditNames (serializeAuthors authors rows)) :
    (authors.nameAt? (slugOf slugify name)).isSome = true := by
  obtain ⟨credit, hcredit, rfl⟩ := List.mem_map.mp h
  obtain ⟨row, -, -, hrow⟩ := exists_of_mem_namedCredits (mem_of_mem_keepFirst hcredit)
  rw [Catalog.slugOf_eq hrow, hrow, Option.isSome_some]

lemma ensureAll_serializeAuthors (authors : Catalog slugify) (rows : List CreditRow) :
    authors.ensureAll (creditNames (serializeAuthors authors rows)) = authors :=
  Catalog.ensureAll_eq_self fun _ => isSome_of_mem_creditNames

namespace SettledCredits

variable {rows : List CreditRow}

/-- No credit is a duplicate. -/
lemma credits_eq (h : SettledCredits authors rows) :
    credits (serializeAuthors authors rows) = namedCredits (serializeAuthors authors rows) := by
  refine keepFirst_eq_self ?_ fun _ _ => List.not_mem_nil
  have hkeys : rows.zipIdx.Pairwise fun a b =>
      creditConstraints.key a.1 ≠ creditConstraints.key b.1 := by
    have hnodup := h.admits.nodup
    rw [← List.zipIdx_map_fst 0 rows, List.map_map] at hnodup
    exact List.pairwise_map.mp hnodup
  rw [namedCredits_serializeAuthors]
  refine List.pairwise_map.mpr (List.pairwise_filterMap.mpr (hkeys.imp ?_))
  intro entry entry' hne credit hcredit credit' hcredit' heq
  obtain ⟨name, hname, rfl⟩ := Option.map_eq_some_iff.mp hcredit
  obtain ⟨name', hname', rfl⟩ := Option.map_eq_some_iff.mp hcredit'
  obtain ⟨hnames, hroles⟩ := Prod.mk.inj heq
  refine hne (Prod.ext ?_ hroles)
  change entry.1.author = entry'.1.author
  have hsame : name = name' := hnames
  rw [← Catalog.slugOf_eq hname, hsame, Catalog.slugOf_eq hname']

lemma creditRows_eq (h : SettledCredits authors rows) :
    creditRows slugify (serializeAuthors authors rows) = renumberCredits rows := by
  rw [creditRows, h.credits_eq, namedCredits_serializeAuthors, List.map_filterMap, renumberCredits,
    ← List.filterMap_eq_map]
  refine List.filterMap_congr fun entry hentry => ?_
  obtain ⟨name, hname⟩ := Option.isSome_iff_exists.mp
    (h.named entry.1 (List.fst_mem_of_mem_zipIdx hentry))
  simp [hname, Credit.row, Catalog.slugOf_eq hname]

lemma renumber (h : SettledCredits authors rows) : SettledCredits authors (renumberCredits rows) where
  named row hrow := by
    obtain ⟨entry, hentry, rfl⟩ := List.mem_map.mp hrow
    exact h.named entry.1 (List.fst_mem_of_mem_zipIdx hentry)
  admits := by
    refine ⟨fun _ _ => rfl, ?_⟩
    have hkeys : (renumberCredits rows).map creditConstraints.key = rows.map creditConstraints.key := by
      conv_rhs => rw [← List.zipIdx_map_fst 0 rows]
      rw [renumberCredits, List.map_map, List.map_map]
      rfl
    rw [hkeys]
    exact h.admits.nodup
  ordered := ordered_renumberCredits rows

lemma reads_iff (h : SettledCredits authors rows) {read : List CreditRow} :
    ReadsBy (·.position) rows read ↔ read = rows :=
  ReadsBy.iff_eq_of_lt h.ordered

end SettledCredits

lemma ordered_creditRows (slugify : String → String) (entries : List AuthorEntry) :
    (creditRows slugify entries).Pairwise fun a b => a.position < b.position := by
  have hnamed : (namedCredits entries).Pairwise fun a b => a.position < b.position := by
    refine List.pairwise_filterMap.mpr ((pairwise_zipIdx entries 0).imp ?_)
    intro entry entry' hlt credit hcredit credit' hcredit'
    obtain ⟨name, -, rfl⟩ := Option.map_eq_some_iff.mp hcredit
    obtain ⟨name', -, rfl⟩ := Option.map_eq_some_iff.mp hcredit'
    exact hlt
  exact List.pairwise_map.mpr (hnamed.sublist (keepFirst_sublist Credit.key [] _))

/-- The credits of a payload have their authors once its names have been added. -/
lemma settledCredits_creditRows {entries : List AuthorEntry} (h : SeparateCredits slugify entries)
    (hnames : ∀ name ∈ creditNames entries, (authors.nameAt? (slugOf slugify name)).isSome = true) :
    SettledCredits authors (creditRows slugify entries) where
  named row hrow := by
    obtain ⟨credit, hcredit, rfl⟩ := List.mem_map.mp hrow
    exact hnames credit.name (List.mem_map_of_mem hcredit)
  admits := admits_creditRows_iff.mpr h
  ordered := ordered_creditRows slugify entries

/-! ### Images -/

/-- Images with all their texts, in the order of their positions. -/
structure SettledImages (rows : List ImageRow) : Prop where
  type : ∀ row ∈ rows, row.type ≠ ""
  size : ∀ row ∈ rows, row.size ≠ ""
  imageUrl : ∀ row ∈ rows, row.imageUrl ≠ ""
  ordered : rows.Pairwise fun a b => a.position < b.position

/-- The rows with their places as positions. -/
def renumberImages (rows : List ImageRow) : List ImageRow :=
  rows.zipIdx.map fun entry => { entry.1 with position := entry.2 }

lemma serializeImages_renumberImages (rows : List ImageRow) :
    serializeImages (renumberImages rows) = serializeImages rows := by
  have hrows : rows.zipIdx.map Prod.fst = rows := List.zipIdx_map_fst 0 rows
  conv_rhs => rw [← hrows]
  rw [serializeImages, renumberImages, serializeImages, List.map_map, List.map_map]
  rfl

lemma ordered_renumberImages (rows : List ImageRow) :
    (renumberImages rows).Pairwise fun a b => a.position < b.position :=
  List.pairwise_map.mpr (pairwise_zipIdx rows 0)

lemma textOr_some {text : String} (h : text ≠ "") (default : String) :
    textOr (some text) default = text := by
  simp [textOr, Option.filter, h]

lemma textOr_ne {default : String} (h : default ≠ "") (text : Option String) :
    textOr text default ≠ "" := by
  rw [textOr]
  cases hfilter : text.filter (· ≠ "") with
  | none => exact h
  | some text => exact of_decide_eq_true (Option.filter_eq_some_iff.mp hfilter).2

lemma SettledImages.imageRows_eq {rows : List ImageRow} (h : SettledImages rows) :
    imageRows (serializeImages rows) = renumberImages rows := by
  rw [imageRows, serializeImages, List.zipIdx_map, List.filterMap_map, renumberImages,
    ← List.filterMap_eq_map]
  refine List.filterMap_congr fun entry hentry => ?_
  have hmem := List.fst_mem_of_mem_zipIdx hentry
  simp [Option.filter, h.imageUrl _ hmem, textOr_some (h.type _ hmem), textOr_some (h.size _ hmem)]

lemma SettledImages.renumber {rows : List ImageRow} (h : SettledImages rows) :
    SettledImages (renumberImages rows) where
  type row hrow := by
    obtain ⟨entry, hentry, rfl⟩ := List.mem_map.mp hrow
    exact h.type entry.1 (List.fst_mem_of_mem_zipIdx hentry)
  size row hrow := by
    obtain ⟨entry, hentry, rfl⟩ := List.mem_map.mp hrow
    exact h.size entry.1 (List.fst_mem_of_mem_zipIdx hentry)
  imageUrl row hrow := by
    obtain ⟨entry, hentry, rfl⟩ := List.mem_map.mp hrow
    exact h.imageUrl entry.1 (List.fst_mem_of_mem_zipIdx hentry)
  ordered := ordered_renumberImages rows

lemma SettledImages.reads_iff {rows read : List ImageRow} (h : SettledImages rows) :
    ReadsBy (·.position) rows read ↔ read = rows :=
  ReadsBy.iff_eq_of_lt h.ordered

lemma exists_of_mem_imageRows {entries : List ImageEntry} {row : ImageRow}
    (h : row ∈ imageRows entries) : ∃ entry ∈ entries, row.type = textOr entry.type "poster" ∧
      row.size = textOr entry.size "standard" ∧ row.imageUrl ≠ "" := by
  obtain ⟨entry, hentry, heq⟩ := List.mem_filterMap.mp h
  obtain ⟨url, hurl, rfl⟩ := Option.map_eq_some_iff.mp heq
  exact ⟨entry.1, List.fst_mem_of_mem_zipIdx hentry, rfl, rfl,
    of_decide_eq_true (Option.filter_eq_some_iff.mp hurl).2⟩

lemma settledImages_imageRows (entries : List ImageEntry) : SettledImages (imageRows entries) where
  type row hrow := by
    obtain ⟨entry, -, htype, -⟩ := exists_of_mem_imageRows hrow
    rw [htype]
    exact textOr_ne (by decide) _
  size row hrow := by
    obtain ⟨entry, -, -, hsize, -⟩ := exists_of_mem_imageRows hrow
    rw [hsize]
    exact textOr_ne (by decide) _
  imageUrl row hrow := by
    obtain ⟨entry, -, -, -, hurl⟩ := exists_of_mem_imageRows hrow
    exact hurl
  ordered := by
    refine List.pairwise_filterMap.mpr ((pairwise_zipIdx entries 0).imp ?_)
    intro entry entry' hlt row hrow row' hrow'
    obtain ⟨url, -, rfl⟩ := Option.map_eq_some_iff.mp hrow
    obtain ⟨url', -, rfl⟩ := Option.map_eq_some_iff.mp hrow'
    exact hlt

/-! ### Platforms -/

/-- Entries of different names are read as they are. -/
lemma namedPlatforms_of_nodup {α : Type} {rows : List α} {entry : α → PlatformPayload}
    {name image : α → String} (hentry : ∀ row ∈ rows, entry row = ⟨some (name row), omitEmpty (image row)⟩)
    (hnamed : ∀ row ∈ rows, name row ≠ "") (hnodup : (rows.map name).Nodup) :
    namedPlatforms (rows.map entry) = rows.map fun row => (name row, image row) := by
  have hrows : (rows.map entry).filterMap (fun entry =>
      (entry.name.filter (· ≠ "")).map fun name => (name, entry.imageUrl.getD ""))
        = rows.map fun row => (name row, image row) := by
    rw [List.filterMap_map, ← List.filterMap_eq_map]
    refine List.filterMap_congr fun row hrow => ?_
    simp [hentry row hrow, Option.filter, hnamed row hrow]
  rw [namedPlatforms, hrows]
  refine keepFirst_eq_self ?_ fun _ _ => List.not_mem_nil
  rwa [List.map_map]

/-- Platforms of one country with their names. -/
structure SettledPlatforms (country : String) (rows : List StreamingRow) : Prop where
  named : ∀ row ∈ rows, row.name ≠ ""
  country : ∀ row ∈ rows, row.countryCode = country
  admits : streamingConstraints.Admits rows

namespace SettledPlatforms

variable {country : String} {rows read : List StreamingRow}

lemma perm (h : SettledPlatforms country rows) (hperm : read.Perm rows) :
    SettledPlatforms country read where
  named row hrow := h.named row (hperm.subset hrow)
  country row hrow := h.country row (hperm.subset hrow)
  admits := ⟨fun _ _ => rfl, (hperm.map _).nodup_iff.mpr h.admits.nodup⟩

/-- Rows of one kind have different names. -/
lemma nodup_names (h : SettledPlatforms country rows) (kind : StreamingKind) :
    ((rows.filter (·.kind = kind)).map StreamingRow.name).Nodup := by
  have hnodup := h.admits.nodup
  refine (List.nodup_map_iff_inj_on ((List.Nodup.of_map _ hnodup).filter _)).mpr ?_
  intro a ha b hb hname
  obtain ⟨ha, hakind⟩ := List.mem_filter.mp ha
  obtain ⟨hb, hbkind⟩ := List.mem_filter.mp hb
  have hkind : a.kind = b.kind := (of_decide_eq_true hakind).trans (of_decide_eq_true hbkind).symm
  have hcountry : a.countryCode = b.countryCode := (h.country a ha).trans (h.country b hb).symm
  exact List.inj_on_of_nodup_map hnodup ha hb (by simp [streamingConstraints, hkind, hname, hcountry])

lemma get_serializeStreamingPlatforms (rows : List StreamingRow) (kind : StreamingKind) :
    (serializeStreamingPlatforms rows).get kind = platformBucket rows kind := by
  cases kind <;> rfl

lemma namedPlatforms_bucket (h : SettledPlatforms country rows) (kind : StreamingKind) :
    namedPlatforms ((serializeStreamingPlatforms rows).get kind)
      = (rows.filter (·.kind = kind)).map fun row => (row.name, row.imageUrl) := by
  rw [get_serializeStreamingPlatforms, platformBucket]
  exact namedPlatforms_of_nodup (fun _ _ => rfl)
    (fun row hrow => h.named row (List.mem_filter.mp hrow).1) (h.nodup_names kind)

/-- The rows of a serialized map are those that it is made of, kind by kind. -/
lemma streamingRows_perm (h : SettledPlatforms country rows) :
    (streamingRows (serializeStreamingPlatforms rows) country).Perm rows := by
  refine (List.perm_ext_iff_of_nodup (List.Nodup.of_map _ (admits_streamingRows _ _).nodup)
    (List.Nodup.of_map _ h.admits.nodup)).mpr fun row => ?_
  rw [mem_streamingRows, h.namedPlatforms_bucket, List.mem_map]
  constructor
  · rintro ⟨⟨other, hother, heq⟩, hcountry⟩
    obtain ⟨hmem, hkind⟩ := List.mem_filter.mp hother
    obtain ⟨hname, himage⟩ := Prod.mk.inj heq
    have hsame : other.countryCode = row.countryCode := (h.country _ hmem).trans hcountry.symm
    obtain rfl : other = row := by
      cases other
      cases row
      simp_all
    exact hmem
  · intro hrow
    exact ⟨⟨row, List.mem_filter.mpr ⟨hrow, by simp⟩, rfl⟩, h.country row hrow⟩

end SettledPlatforms

lemma ne_of_mem_namedPlatforms {entries : List PlatformPayload} {platform : String × String}
    (h : platform ∈ namedPlatforms entries) : platform.1 ≠ "" := by
  obtain ⟨entry, -, heq⟩ := List.mem_filterMap.mp (mem_of_mem_keepFirst h)
  obtain ⟨name, hname, rfl⟩ := Option.map_eq_some_iff.mp heq
  exact of_decide_eq_true (Option.filter_eq_some_iff.mp hname).2

lemma settledPlatforms_streamingRows (platforms : PlatformMap) (country : String) :
    SettledPlatforms country (streamingRows platforms country) where
  named _ hrow := ne_of_mem_namedPlatforms (mem_streamingRows.mp hrow).1
  country _ hrow := (mem_streamingRows.mp hrow).2
  admits := admits_streamingRows platforms country

/-- Platforms of a game with different names. -/
structure SettledGamePlatforms (rows : List GamePlatformRow) : Prop where
  named : ∀ row ∈ rows, row.name ≠ ""
  nodup : (rows.map (·.name)).Nodup

lemma SettledGamePlatforms.perm {rows read : List GamePlatformRow} (h : SettledGamePlatforms rows)
    (hperm : read.Perm rows) : SettledGamePlatforms read where
  named row hrow := h.named row (hperm.subset hrow)
  nodup := (hperm.map _).nodup_iff.mpr h.nodup

lemma SettledGamePlatforms.gamePlatformRows_eq {rows : List GamePlatformRow}
    (h : SettledGamePlatforms rows) :
    gamePlatformRows (rows.map GamePlatformRow.entry) = rows := by
  have hnames : namedPlatforms (rows.map GamePlatformRow.entry)
      = rows.map fun row => (row.name, row.imageUrl) :=
    namedPlatforms_of_nodup (fun _ _ => rfl) h.named h.nodup
  rw [gamePlatformRows, hnames, List.map_map]
  exact List.map_id rows

lemma settledGamePlatforms_gamePlatformRows (entries : List PlatformPayload) :
    SettledGamePlatforms (gamePlatformRows entries) where
  named row hrow := by
    obtain ⟨platform, hplatform, rfl⟩ := List.mem_map.mp hrow
    exact ne_of_mem_namedPlatforms hplatform
  nodup := by
    rw [gamePlatformRows, List.map_map]
    exact nodup_namedPlatforms entries

/-! ### Fields -/

@[simp] lemma cleanOptionalBool_serializeBool (value : Option Bool) :
    cleanOptionalBool (serializeBool value) = value := by
  cases value <;> rfl

@[simp] lemma bind_serializeReleaseDate (date : Option CalendarDate) :
    (serializeReleaseDate date).bind parseIsoDate = date := by
  cases date with
  | none => rfl
  | some date => exact parseIsoDate_isoformat date

lemma cleanEntries_serializeSafetyList {α : Type} [DecidableEq α] {limit : ℕ}
    {read : Json → Option α} {write : α → Json}
    (hwrite : ∀ entry a, read entry = some a → read (write a) = some a) (value : Json) :
    cleanEntries limit read (serializeSafetyList write (cleanEntries limit read value))
      = cleanEntries limit read value := by
  rw [serializeSafetyList]
  split_ifs with hempty
  · rw [hempty]
    rfl
  · exact cleanEntries_map_write hwrite value

@[simp] lemma cleanTextList_serializeSafetyList (limit : ℕ) (value : Json) :
    cleanTextList limit (serializeSafetyList .str (cleanTextList limit value))
      = cleanTextList limit value := by
  simp only [cleanTextList_eq_cleanEntries]
  exact cleanEntries_serializeSafetyList (fun _ _ => cleanText_str) value

lemma readCertification_toJson {entry : Json} {certification : Certification}
    (h : readCertification entry = some certification) :
    readCertification certification.toJson = some certification := by
  obtain ⟨country, hcountry, h⟩ := Option.bind_eq_some_iff.mp h
  obtain ⟨rating, hrating, h⟩ := Option.bind_eq_some_iff.mp h
  obtain rfl := Option.some.inj h
  have hcountry' : (Certification.toJson ⟨country, rating⟩).get "country" = .str country := rfl
  have hrating' : (Certification.toJson ⟨country, rating⟩).get "rating" = .str rating := rfl
  simp [readCertification, hcountry', hrating', cleanText_str hcountry, cleanText_str hrating]

@[simp] lemma cleanCertifications_serializeSafetyList (limit : ℕ) (value : Json) :
    cleanCertifications limit
        (serializeSafetyList Certification.toJson (cleanCertifications limit value))
      = cleanCertifications limit value :=
  cleanEntries_serializeSafetyList (fun _ _ => readCertification_toJson) value

lemma get_descriptors_toJson (rating : AgeRating) : rating.toJson.get "descriptors"
    = serializeSafetyList .str rating.descriptors := by
  unfold AgeRating.toJson serializeSafetyList
  split_ifs <;> rfl

lemma readAgeRating_toJson {entry : Json} {rating : AgeRating}
    (h : readAgeRating entry = some rating) : readAgeRating rating.toJson = some rating := by
  obtain ⟨organization, horganization, h⟩ := Option.bind_eq_some_iff.mp h
  obtain ⟨text, htext, h⟩ := Option.bind_eq_some_iff.mp h
  have hdescriptors := get_descriptors_toJson rating
  obtain rfl := Option.some.inj h
  have horganization' : (AgeRating.toJson ⟨organization, text,
    cleanTextList maxDescriptors (entry.get "descriptors")⟩).get "organization" = .str organization := rfl
  have htext' : (AgeRating.toJson ⟨organization, text,
    cleanTextList maxDescriptors (entry.get "descriptors")⟩).get "rating" = .str text := rfl
  simp [readAgeRating, horganization', htext', hdescriptors, cleanText_str horganization,
    cleanText_str htext]

@[simp] lemma cleanAgeRatings_serializeSafetyList (limit : ℕ) (value : Json) :
    cleanAgeRatings limit (serializeSafetyList AgeRating.toJson (cleanAgeRatings limit value))
      = cleanAgeRatings limit value :=
  cleanEntries_serializeSafetyList (fun _ _ => readAgeRating_toJson) value

/-! ### Detail rows -/

/-- A movie's row is read back from its payload. -/
lemma MoviePayload.toRow_fromLocal {payload : MoviePayload} {read : ScreenRecord MovieRow}
    (h : read.detail = payload.toRow) (authors : Catalog slugify) (item : ContentItem) :
    (MoviePayload.fromLocal authors item read).toRow = payload.toRow := by
  simp [MoviePayload.fromLocal, h, MoviePayload.toRow, ScreenPayload.toRow]

lemma AlbumPayload.toRow_fromLocal (authors : Catalog slugify) (item : ContentItem)
    (read : AlbumRecord) : (AlbumPayload.fromLocal authors item read).toRow = read.detail := by
  simp [AlbumPayload.fromLocal, AlbumPayload.toRow]

lemma BookPayload.toRow_fromLocal {payload : BookPayload} {read : BookRecord}
    (h : read.detail = payload.toRow) (authors : Catalog slugify) (item : ContentItem) :
    (BookPayload.fromLocal authors item read).toRow = payload.toRow := by
  simp [BookPayload.fromLocal, h, BookPayload.toRow]

@[simp] lemma bind_min_serializePlayTime (min max : Option ℤ) :
    (serializePlayTime min max).bind (·.min) = min := by
  cases min <;> cases max <;> rfl

@[simp] lemma bind_max_serializePlayTime (min max : Option ℤ) :
    (serializePlayTime min max).bind (·.max) = max := by
  cases min <;> cases max <;> rfl

lemma GamePayload.toRow_fromLocal {payload : GamePayload} {read : GameRecord}
    (h : read.detail = payload.toRow) (store : Store slugify) (item : ContentItem) :
    (GamePayload.fromLocal store item read).toRow = payload.toRow := by
  simp [GamePayload.fromLocal, h, GamePayload.toRow]

/-! ### Links of games -/

/-- Different slugs of rows. -/
structure SettledLinks (catalog : Catalog slugify) (slugs : List String) : Prop where
  named : ∀ slug ∈ slugs, (catalog.nameAt? slug).isSome = true
  nodup : slugs.Nodup

namespace SettledLinks

variable {catalog : Catalog slugify} {slugs read : List String}

lemma perm (h : SettledLinks catalog slugs) (hperm : read.Perm slugs) : SettledLinks catalog read where
  named slug hslug := h.named slug (hperm.subset hslug)
  nodup := hperm.nodup_iff.mpr h.nodup

lemma namesOf_text (catalog : Catalog slugify) (slugs : List String) :
    namesOf (slugs.map catalog.text) = slugs.filterMap catalog.nameAt? := by
  rw [namesOf, List.filterMap_map]
  exact List.filterMap_congr fun slug _ => nameOf?_text catalog slug

lemma nameAt?_of_mem {name : Name} (h : name ∈ namesOf (slugs.map catalog.text)) :
    catalog.nameAt? (slugOf slugify name) = some name := by
  rw [namesOf_text] at h
  obtain ⟨slug, -, hname⟩ := List.mem_filterMap.mp h
  rw [Catalog.slugOf_eq hname, hname]

/-- A linked row is found by its name. -/
lemma accepts (catalog : Catalog slugify) (slugs : List String) :
    catalog.Accepts (namesOf (slugs.map catalog.text)) where
  rows name hname other hother := by
    rw [nameAt?_of_mem hname] at hother
    exact (Option.some.inj hother).symm
  names name hname other hother hslug := by
    have hrow := nameAt?_of_mem hname
    rw [hslug, nameAt?_of_mem hother] at hrow
    exact (Option.some.inj hrow).symm

lemma ensureAll_eq (catalog : Catalog slugify) (slugs : List String) :
    catalog.ensureAll (namesOf (slugs.map catalog.text)) = catalog :=
  Catalog.ensureAll_eq_self fun name hname => by rw [nameAt?_of_mem hname, Option.isSome_some]

lemma linkedSlugs_eq (h : SettledLinks catalog slugs) :
    linkedSlugs slugify (slugs.map catalog.text) = slugs := by
  have hslugs : (slugs.filterMap catalog.nameAt?).map (fun name : Name => slugOf slugify name.val)
      = slugs := by
    rw [List.map_filterMap, List.filterMap_congr (g := some), List.filterMap_some]
    intro slug hslug
    obtain ⟨name, hname⟩ := Option.isSome_iff_exists.mp (h.named slug hslug)
    rw [hname, Option.map_some, Catalog.slugOf_eq hname]
  rw [linkedSlugs, namesOf_text, hslugs, eraseDups_eq_self h.nodup]

end SettledLinks

lemma settledLinks_linkedSlugs (catalog : Catalog slugify) (names : List String) :
    SettledLinks (catalog.ensureAll (namesOf names)) (linkedSlugs slugify names) where
  named slug hslug := by
    obtain ⟨name, hname, rfl⟩ := List.mem_map.mp (List.mem_eraseDups.mp hslug)
    exact catalog.isSome_nameAt?_ensureAll hname
  nodup := nodup_eraseDups _

/-! ### Tracks -/

/-- Tracks with ids of their own and settled credits. -/
structure SettledTracks (authors : Catalog slugify) (tracks : List TrackRecord) : Prop where
  named : ∀ track ∈ tracks, track.row.trackIdExternal ≠ ""
  admits : trackConstraints.Admits (tracks.map (·.row))
  credits : ∀ track ∈ tracks, SettledCredits authors track.credits

def renumberTrack (track : TrackRecord) : TrackRecord :=
  { track with credits := renumberCredits track.credits }

lemma entry_renumberTrack (authors : Catalog slugify) (track : TrackRecord) :
    (renumberTrack track).entry authors = track.entry authors := by
  simp [TrackRecord.entry, renumberTrack, serializeAuthors_renumberCredits]

lemma toRow_entry {track : TrackRecord} (h : track.row.trackIdExternal ≠ "")
    (authors : Catalog slugify) : (track.entry authors).toRow = some track.row := by
  simp [TrackEntry.toRow, TrackRecord.entry, Option.filter, h]

namespace SettledTracks

variable {tracks read : List TrackRecord}

lemma perm (h : SettledTracks authors tracks) (hperm : read.Perm tracks) :
    SettledTracks authors read where
  named track htrack := h.named track (hperm.subset htrack)
  admits := by
    refine ⟨fun row hrow => h.admits.check row ((hperm.map _).subset hrow), ?_⟩
    exact ((hperm.map _).map _).nodup_iff.mpr h.admits.nodup
  credits track htrack := h.credits track (hperm.subset htrack)

lemma trackRows_eq (h : SettledTracks authors tracks) {payload : AlbumPayload}
    (hpayload : payload.tracks = tracks.map (TrackRecord.entry authors)) :
    payload.trackRows = tracks.map fun track => (track.row, serializeAuthors authors track.credits) := by
  rw [AlbumPayload.trackRows, hpayload, List.filterMap_map, ← List.filterMap_eq_map]
  refine List.filterMap_congr fun track htrack => ?_
  simp only [Function.comp_apply, toRow_entry (h.named track htrack), Option.map_some]
  rfl

/-- The tracks are written with new positions of their credits. -/
lemma map_trackRecord (h : SettledTracks authors tracks) :
    (tracks.map fun track => (track.row, serializeAuthors authors track.credits)).map
      (trackRecord slugify) = tracks.map renumberTrack := by
  rw [List.map_map]
  refine List.map_congr_left fun track htrack => ?_
  simp [trackRecord, renumberTrack, (h.credits track htrack).creditRows_eq]

lemma ensureAll_trackNames (authors : Catalog slugify) (tracks : List TrackRecord) :
    authors.ensureAll (trackNames (tracks.map fun track =>
      (track.row, serializeAuthors authors track.credits))) = authors := by
  refine Catalog.ensureAll_eq_self fun name hname => ?_
  obtain ⟨entry, hentry, hname⟩ := List.mem_flatMap.mp hname
  obtain ⟨track, -, rfl⟩ := List.mem_map.mp hentry
  exact isSome_of_mem_creditNames hname

lemma renumber (h : SettledTracks authors tracks) :
    SettledTracks authors (tracks.map renumberTrack) where
  named track htrack := by
    obtain ⟨old, hold, rfl⟩ := List.mem_map.mp htrack
    exact h.named old hold
  admits := by
    rw [List.map_map]
    exact h.admits
  credits track htrack := by
    obtain ⟨old, hold, rfl⟩ := List.mem_map.mp htrack
    exact (h.credits old hold).renumber

/-- Only the order of the tracks is open. -/
lemma reads_iff (h : SettledTracks authors tracks) :
    (∃ tracks', ReadsBy (·.row.trackNumber) tracks tracks' ∧
      List.Forall₂ TrackRecord.Reads tracks' read) ↔ ReadsBy (·.row.trackNumber) tracks read := by
  constructor
  · rintro ⟨tracks', hread, hall⟩
    have hcredits := (h.perm hread.perm).credits
    have hsame : List.Forall₂ (· = ·) tracks' read := by
      refine ((List.forall₂_and_left _ _).mpr ⟨hcredits, hall⟩).imp ?_
      rintro ⟨row, credits⟩ ⟨row', credits'⟩ ⟨hsettled, hreads⟩
      obtain rfl : row' = row := hreads.row
      obtain rfl : credits' = credits := hsettled.reads_iff.mp hreads.credits
      rfl
    rw [List.forall₂_eq_eq_eq] at hsame
    exact hsame ▸ hread
  · intro hread
    refine ⟨read, hread, List.forall₂_same.mpr fun track htrack => ⟨rfl, ?_⟩⟩
    exact ((h.perm hread.perm).credits track htrack).reads_iff.mpr rfl

end SettledTracks

/-- The tracks of an accepted payload are stored under their ids, with their credits in order. -/
lemma settledTracks_trackRows {payload : AlbumPayload}
    (h : payload.Storable slugify)
    (hnames : ∀ name ∈ trackNames payload.trackRows,
      (authors.nameAt? (slugOf slugify name)).isSome = true) :
    SettledTracks authors (payload.trackRows.map (trackRecord slugify)) where
  named track htrack := by
    obtain ⟨entry, hentry, rfl⟩ := List.mem_map.mp htrack
    obtain ⟨original, -, hrow⟩ := List.mem_filterMap.mp hentry
    obtain ⟨row, htoRow, rfl⟩ := Option.map_eq_some_iff.mp hrow
    obtain ⟨external, hexternal, rfl⟩ := Option.map_eq_some_iff.mp htoRow
    exact of_decide_eq_true (Option.filter_eq_some_iff.mp hexternal).2
  admits := by
    rw [List.map_map]
    exact h.tracks
  credits track htrack := by
    obtain ⟨entry, hentry, rfl⟩ := List.mem_map.mp htrack
    exact settledCredits_creditRows (h.trackAuthors entry hentry) fun name hname =>
      hnames name (List.mem_flatMap.mpr ⟨entry, hentry, hname⟩)

end Denn.Ingest
