import Denn.Ingest.Settled

/-!
# Tracks of a stored album

Tracks are stored without their place in the payload and read in the order of their numbers, which
start again on each disc; a credit is stored with its place, and with the slug of its author, whose
row keeps the name that it was created with.
-/

namespace Denn.Ingest

open Denn.Core

variable {slugify : String → String}

/-- The names and roles of a list of authors, without duplicates. -/
def creditKeys (entries : List AuthorEntry) : List (Name × String) := (credits entries).map Credit.key

/-- The tracks of a payload that have an id: id, number, title, duration, link and flag, and the
    credits. -/
def AlbumPayload.trackContents (payload : AlbumPayload) : List (TrackRow × List (Name × String)) :=
  payload.trackRows.map fun entry => (entry.1, creditKeys entry.2)

/-- What `from_local` returns of the album has, always, the payload's tracks in the payload's order. -/
def ReturnsTracks {κ : Type*} [LinearOrder κ] (collate : String ↪ κ) (store : Store slugify)
    (item : ContentItem) (payload : AlbumPayload) : Prop :=
  (∃ returned, FromLocal collate store item (.album returned)) ∧
    ∀ returned, FromLocal collate store item (.album returned) →
      returned.trackContents = payload.trackContents

/-- Each track has a greater number than the one before it, and each credited author is spelled as
    the stored one or, if there is none, as in the first credit of the payload with that slug. -/
structure AlbumPayload.TracksReturn (authors : Catalog slugify) (payload : AlbumPayload) : Prop where
  numbers : (payload.trackRows.map (·.1.trackNumber)).Pairwise (· < ·)
  spelled : ∀ name ∈ trackNames payload.trackRows,
    authors.spelling (creditNames payload.authors ++ trackNames payload.trackRows)
      (slugOf slugify name) = some name

/-! ### Credits -/

/-- A track's credits as they are returned, with the names of the catalog. -/
def storedKeys (authors : Catalog slugify) (entries : List AuthorEntry) : List (Name × String) :=
  creditKeys (serializeAuthors authors (creditRows slugify entries))

lemma creditKeys_serializeAuthors {authors : Catalog slugify} {rows : List CreditRow}
    (h : SettledCredits authors rows) : creditKeys (serializeAuthors authors rows)
      = rows.filterMap fun row => (authors.nameAt? row.author).map (·, row.role) := by
  rw [creditKeys, h.credits_eq, namedCredits_serializeAuthors, List.map_filterMap]
  conv_rhs => rw [← List.zipIdx_map_fst 0 rows]
  rw [List.filterMap_map]
  refine List.filterMap_congr fun entry _ => ?_
  rw [Option.map_map]
  rfl

/-- The credits come back if each author is spelled as in the catalog. -/
lemma storedKeys_eq_iff {authors : Catalog slugify} {entries : List AuthorEntry}
    (h : SettledCredits authors (creditRows slugify entries)) :
    storedKeys authors entries = creditKeys entries ↔
      ∀ name ∈ creditNames entries, authors.nameAt? (slugOf slugify name) = some name := by
  rw [storedKeys, creditKeys_serializeAuthors h, creditRows, creditKeys, creditNames,
    List.forall_mem_map]
  have hnamed : ∀ credit ∈ credits entries,
      (authors.nameAt? (slugOf slugify credit.name)).isSome = true := fun credit hcredit =>
    h.named (credit.row slugify) (List.mem_map_of_mem hcredit)
  generalize credits entries = list at hnamed ⊢
  induction list with
  | nil => simp
  | cons credit list ih =>
    obtain ⟨hfirst, hrest⟩ := List.forall_mem_cons.mp hnamed
    obtain ⟨name, hname⟩ := Option.isSome_iff_exists.mp hfirst
    have hkeys : (name, credit.role) = credit.key ↔
        authors.nameAt? (slugOf slugify credit.name) = some credit.name := by
      rw [hname, Option.some.injEq, Credit.key, Prod.mk.injEq]
      exact and_iff_left rfl
    rw [List.map_cons, List.filterMap_cons, List.map_cons, List.forall_mem_cons]
    simp only [Credit.row, hname, Option.map_some, List.cons.injEq] at ih hkeys ⊢
    exact and_congr hkeys (ih hrest)

/-! ### Tracks -/

/-- A stored track as it is returned. -/
def recordContents (authors : Catalog slugify) (track : TrackRecord) :
    TrackRow × List (Name × String) :=
  (track.row, creditKeys (serializeAuthors authors track.credits))

lemma trackContents_fromLocal {authors : Catalog slugify} {read : AlbumRecord}
    (h : SettledTracks authors read.tracks) (item : ContentItem) :
    (AlbumPayload.fromLocal authors item read).trackContents
      = read.tracks.map (recordContents authors) := by
  rw [AlbumPayload.trackContents, h.trackRows_eq rfl, List.map_map]
  rfl

/-- Tracks that are read in their order come back as they were if the authors are spelled alike. -/
lemma map_recordContents_eq_iff {payload : AlbumPayload} {authors : Catalog slugify}
    (h : SettledTracks authors (payload.trackRows.map (trackRecord slugify))) :
    (payload.trackRows.map (trackRecord slugify)).map (recordContents authors)
        = payload.trackContents ↔
      ∀ name ∈ trackNames payload.trackRows, authors.nameAt? (slugOf slugify name) = some name := by
  rw [AlbumPayload.trackContents, List.map_map, List.map_inj_left, trackNames, List.forall_mem_flatMap]
  refine forall₂_congr fun entry hentry => ?_
  rw [← storedKeys_eq_iff (h.credits _ (List.mem_map_of_mem hentry)), Function.comp_apply,
    Prod.mk.injEq]
  exact and_iff_right rfl

/-! ### Stored albums -/

section

variable {store store' : Store slugify} {item : ContentItem} {payload : AlbumPayload}
  {κ : Type*} [LinearOrder κ]

lemma nameAt?_afterAlbum (store : Store slugify) (item : ContentItem) (payload : AlbumPayload)
    (slug : String) : (afterAlbum store item payload).authors.nameAt? slug
      = store.authors.spelling (creditNames payload.authors ++ trackNames payload.trackRows) slug := by
  rw [← Catalog.nameAt?_ensureAll, Catalog.ensureAll, List.foldl_append]
  rfl

lemma settledTracks_afterAlbum (store : Store slugify) (item : ContentItem)
    (h : payload.Storable slugify) :
    SettledTracks (afterAlbum store item payload).authors
      (payload.trackRows.map (trackRecord slugify)) :=
  settledTracks_trackRows h fun _ hname => Catalog.isSome_nameAt?_ensureAll _ hname

lemma FromLocal.album_inv {collate : String ↪ κ} {returned : AlbumPayload}
    (h : FromLocal collate store item (.album returned)) :
    ∃ record read, store.albums.get? item = some record ∧ record.Reads read ∧
      returned = .fromLocal store.authors item read := by
  cases h with
  | album _ hrecord hread => exact ⟨_, _, hrecord, hread, rfl⟩

/-- The tracks of what is returned are the stored ones, in an order of their numbers. -/
lemma fromLocal_afterAlbum {collate : String ↪ κ} {returned : AlbumPayload}
    (h : payload.Storable slugify)
    (hreturned : FromLocal collate (afterAlbum store item payload) item (.album returned)) :
    ∃ tracks, ReadsBy (·.row.trackNumber) (payload.trackRows.map (trackRecord slugify)) tracks ∧
      returned.trackContents = tracks.map (recordContents (afterAlbum store item payload).authors) := by
  obtain ⟨record, read, hrecord, hread, rfl⟩ := hreturned.album_inv
  rw [afterAlbum, Table.get?_set_self] at hrecord
  obtain rfl := Option.some.inj hrecord
  have hsettled := settledTracks_afterAlbum store item h
  have htracks := hsettled.reads_iff.mp hread.tracks
  exact ⟨read.tracks, htracks, trackContents_fromLocal (hsettled.perm htracks.perm) item⟩

/-- Every order of the numbers can be returned. -/
lemma exists_fromLocal_afterAlbum (store : Store slugify) (collate : String ↪ κ)
    (htype : item.contentType = .album)
    (h : payload.Storable slugify) {tracks : List TrackRecord}
    (htracks : ReadsBy (·.row.trackNumber) (payload.trackRows.map (trackRecord slugify)) tracks) :
    ∃ returned, FromLocal collate (afterAlbum store item payload) item (.album returned) ∧
      returned.trackContents = tracks.map (recordContents (afterAlbum store item payload).authors) := by
  have hsettled := settledTracks_afterAlbum store item h
  have hrecord : (afterAlbum store item payload).albums.get? item = some
      { detail := payload.toRow, credits := creditRows slugify payload.authors,
        images := imageRows payload.images, tracks := payload.trackRows.map (trackRecord slugify) } :=
    Table.get?_set_self ..
  have hread : AlbumRecord.Reads
      ⟨payload.toRow, creditRows slugify payload.authors, imageRows payload.images,
        payload.trackRows.map (trackRecord slugify)⟩
      ⟨payload.toRow, creditRows slugify payload.authors, imageRows payload.images, tracks⟩ :=
    { detail := rfl
      credits := (ReadsBy.iff_eq_of_lt (ordered_creditRows slugify _)).mpr rfl
      images := (settledImages_imageRows payload.images).reads_iff.mpr rfl
      tracks := hsettled.reads_iff.mpr htracks }
  exact ⟨_, .album htype hrecord hread, trackContents_fromLocal (hsettled.perm htracks.perm) item⟩

/-- The tracks of an accepted album come back in its order, as they were, exactly if their numbers
    increase and the authors are spelled as the stored ones. -/
theorem returnsTracks_iff (collate : String ↪ κ) (htype : item.contentType = .album)
    (hupsert : upsertAlbum store item payload = .ok store') :
    ReturnsTracks collate store' item payload ↔ payload.TracksReturn store.authors := by
  obtain ⟨⟨-, hstorable⟩, rfl⟩ := (yields_upsertAlbum store item payload store').mp hupsert
  have hsettled := settledTracks_afterAlbum store item hstorable
  have hids : ((payload.trackRows.map (trackRecord slugify)).map
      (·.row.trackIdExternal)).Nodup := by
    have hnodup := hsettled.admits.nodup
    rwa [List.map_map] at hnodup
  have hnumbers : (payload.trackRows.map (trackRecord slugify)).Pairwise
        (fun a b => a.row.trackNumber < b.row.trackNumber) ↔
      (payload.trackRows.map (·.1.trackNumber)).Pairwise (· < ·) := by
    rw [List.pairwise_map, List.pairwise_map]
    rfl
  constructor
  · rintro ⟨-, hreturns⟩
    have hread : ∀ tracks, ReadsBy (·.row.trackNumber)
        (payload.trackRows.map (trackRecord slugify)) tracks →
        tracks.map (recordContents (afterAlbum store item payload).authors)
          = payload.trackContents := by
      intro tracks htracks
      obtain ⟨returned, hreturned, hcontents⟩ :=
        exists_fromLocal_afterAlbum store collate htype hstorable htracks
      rw [← hcontents, hreturns returned hreturned]
    have horder : ∀ tracks, ReadsBy (·.row.trackNumber)
        (payload.trackRows.map (trackRecord slugify)) tracks →
        tracks = payload.trackRows.map (trackRecord slugify) := by
      intro tracks htracks
      refine htracks.eq_of_map_eq hids ?_
      have hmap := congrArg (List.map fun contents => contents.1.trackIdExternal)
        (hread tracks htracks)
      rw [AlbumPayload.trackContents, List.map_map, List.map_map] at hmap
      rw [List.map_map]
      exact hmap
    have hpairwise := (reads_in_order_iff (List.Nodup.of_map _ hids)).mp horder
    refine ⟨hnumbers.mp hpairwise, fun name hname => ?_⟩
    rw [← nameAt?_afterAlbum store item]
    have hself := hread _ ((ReadsBy.iff_eq_of_lt hpairwise).mpr rfl)
    exact (map_recordContents_eq_iff hsettled).mp hself name hname
  · rintro ⟨hincrease, hspelled⟩
    have hpairwise := hnumbers.mpr hincrease
    have hself : (payload.trackRows.map (trackRecord slugify)).map
        (recordContents (afterAlbum store item payload).authors) = payload.trackContents := by
      refine (map_recordContents_eq_iff hsettled).mpr fun name hname => ?_
      rw [nameAt?_afterAlbum]
      exact hspelled name hname
    constructor
    · obtain ⟨returned, hreturned, -⟩ := exists_fromLocal_afterAlbum store collate htype
        hstorable ((ReadsBy.iff_eq_of_lt hpairwise).mpr rfl)
      exact ⟨returned, hreturned⟩
    · intro returned hreturned
      obtain ⟨tracks, htracks, hcontents⟩ := fromLocal_afterAlbum hstorable hreturned
      rw [hcontents, (ReadsBy.iff_eq_of_lt hpairwise).mp htracks, hself]

end

/-! ### Samples -/

section Samples

/-- An album with tracks of the given numbers, all by one author. -/
def numbered (numbers : List ℤ) : AlbumPayload where
  id := some "a"
  type := some "album"
  tracks := numbers.zipIdx.map fun entry =>
    { id := some (toString entry.2)
      trackNumber := some entry.1
      authors := [{ name := some "radiohead" }] }

def sampleAlbum : ContentItem := ⟨.spotify, "a", .album⟩

def singleDisc : AlbumPayload := numbered [1, 2, 3]

def twoDiscs : AlbumPayload := numbered [1, 2, 1, 2]

lemma storable_discs {payload : AlbumPayload} (h : payload = singleDisc ∨ payload = twoDiscs) :
    payload.Storable id := by
  unfold singleDisc twoDiscs at h
  rcases h with rfl | rfl <;>
    exact ⟨by decide, by unfold SeparateCredits; decide, by decide, by unfold SeparateCredits; decide⟩

/-- The tracks of a single disc come back. -/
theorem returnsTracks_singleDisc :
    ReturnsTracks (.refl String) (afterAlbum ({} : Store id) sampleAlbum singleDisc) sampleAlbum
      singleDisc :=
  (returnsTracks_iff (.refl String) rfl ((yields_upsertAlbum {} sampleAlbum singleDisc _).mpr
    ⟨⟨by decide, storable_discs (.inl rfl)⟩, rfl⟩)).mpr ⟨by decide, by decide⟩

/-- The tracks of two discs come back shuffled. -/
theorem twoDiscs_shuffled : ¬ ∀ (slugify : String → String) (store store' : Store slugify)
    (item : ContentItem) (payload : AlbumPayload), item.contentType = .album →
    upsertAlbum store item payload = .ok store' →
    ReturnsTracks (.refl String) store' item payload := by
  intro h
  have hstorable : twoDiscs.Storable id := storable_discs (.inr rfl)
  have hreturns := h id {} _ sampleAlbum twoDiscs rfl
    ((yields_upsertAlbum {} sampleAlbum twoDiscs _).mpr ⟨⟨by decide, hstorable⟩, rfl⟩)
  have hread : ReadsBy (·.row.trackNumber) (twoDiscs.trackRows.map (trackRecord id))
      ([0, 2, 1, 3].filterMap ((twoDiscs.trackRows.map (trackRecord id))[·]?)) :=
    ⟨by decide +kernel, by decide +kernel⟩
  obtain ⟨returned, hreturned, hcontents⟩ :=
    exists_fromLocal_afterAlbum {} (.refl String) (rfl : sampleAlbum.contentType = .album)
      hstorable hread
  rw [hreturns.2 returned hreturned] at hcontents
  have hids := congrArg (List.map fun contents => contents.1.trackIdExternal) hcontents
  rw [List.map_map] at hids
  have hshuffled : ["0", "1", "2", "3"] = ["0", "2", "1", "3"] := hids
  exact absurd hshuffled (by decide)

end Samples

end Denn.Ingest
