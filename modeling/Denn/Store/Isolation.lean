import Denn.Store.Proxy
import Mathlib.Data.List.ReduceOption

/-!
# Isolation of the items of a batch

When the source data of an item depends on the rest of its batch. A bulk merge is right for every
item, whatever else is asked for; but a season whose number does not parse raises out of the
partition and takes the answers of all TMDB items with it.
-/

namespace Denn

open Core

variable {Payload : Type}

/-! ### What a batch finds -/

/-- The external ids of the batch's items of one type, in the order they are asked for. -/
def Batch.ids (batch : Batch) (contentType : ContentType) : List String :=
  (batch.items.filter (·.contentType = contentType)).map fun item => item.externalId

/-- The bulk answers hold an object with an external id. -/
def Proxy.Names (proxy : Proxy Payload) (path : String) (country : Option String)
    (key : ProxyObject Payload → Option String) (ids : List String) (externalId : String) : Prop :=
  ∃ chunk ∈ ids.toChunks 20, ∃ objects, proxy.bulk path chunk country = some objects ∧
    ∃ object ∈ objects, key object = some externalId

/-- The proxy answers the requests of the batch with something for the item. -/
def Proxy.Answers (proxy : Proxy Payload) (country : Option String) (batch : Batch)
    (item : FetchItem) : Prop :=
  match item.contentType with
  | .movie => proxy.Names "/movies/bulk" country ProxyObject.numericKey (batch.ids .movie)
      item.externalId
  | .tvShow => proxy.Names "/tv-shows/bulk" country ProxyObject.numericKey (batch.ids .tvShow)
      item.externalId
  | .season => (proxy.findSeason country item.externalId).isSome = true
  | .game => proxy.Names "/games/bulk" none ProxyObject.numericKey (batch.ids .game)
      item.externalId
  | .album => proxy.Names "/albums/bulk" none ProxyObject.textKey (batch.ids .album)
      item.externalId
  | .book => proxy.Names "/books/bulk" none ProxyObject.textKey (batch.ids .book)
      item.externalId

/-- The answer for an item, from its own type's requests. -/
def Proxy.answer (proxy : Proxy Payload) (country : Option String) (batch : Batch)
    (item : FetchItem) : Option Payload :=
  match item.contentType with
  | .movie => proxy.find "/movies/bulk" country ProxyObject.numericKey (batch.ids .movie)
      item.externalId
  | .tvShow => proxy.find "/tv-shows/bulk" country ProxyObject.numericKey (batch.ids .tvShow)
      item.externalId
  | .season => proxy.findSeason country item.externalId
  | .game => proxy.find "/games/bulk" none ProxyObject.numericKey (batch.ids .game)
      item.externalId
  | .album => proxy.find "/albums/bulk" none ProxyObject.textKey (batch.ids .album)
      item.externalId
  | .book => proxy.find "/books/bulk" none ProxyObject.textKey (batch.ids .book)
      item.externalId

section Batch

variable {proxy : Proxy Payload} {country : Option String} {batch : Batch} {item : FetchItem}

lemma isSome_find_iff {path : String} {key : ProxyObject Payload → Option String}
    {ids : List String} {externalId : String} :
    (proxy.find path country key ids externalId).isSome = true ↔
      proxy.Names path country key ids externalId := by
  rw [Proxy.find, Option.isSome_map, lastWithKey, List.find?_isSome]
  constructor
  · rintro ⟨object, hmem, hkey⟩
    rw [List.mem_reverse, Proxy.bulkAll, List.mem_flatMap] at hmem
    obtain ⟨chunk, hchunk, hobject⟩ := hmem
    cases hreply : proxy.bulk path chunk country with
    | none => simp [hreply] at hobject
    | some objects =>
      rw [hreply, Option.getD_some] at hobject
      exact ⟨chunk, hchunk, objects, hreply, object, hobject, by simpa using hkey⟩
  · rintro ⟨chunk, hchunk, objects, hreply, object, hobject, hkey⟩
    refine ⟨object, ?_, by simpa using hkey⟩
    rw [List.mem_reverse, Proxy.bulkAll, List.mem_flatMap]
    exact ⟨chunk, hchunk, by rwa [hreply, Option.getD_some]⟩

/-- Both keys are the text of the object's id. -/
def KeyOfId (key : ProxyObject Payload → Option String) : Prop :=
  ∀ object externalId, key object = some externalId →
    object.id.map ProviderId.str = some externalId

lemma keyOfId_numericKey : KeyOfId (@ProxyObject.numericKey Payload) := by
  intro object externalId h
  obtain ⟨id, hid, rfl⟩ := Option.map_eq_some_iff.mp h
  rw [(Option.filter_eq_some_iff.mp hid).1, Option.map_some]

/-- The batch's items of one type. -/
def Batch.pairs (batch : Batch) (contentType : ContentType) : List (ItemId × String) :=
  (batch.items.filter (·.contentType = contentType)).map fun item => (item.id, item.externalId)

lemma mem_pairs (hmem : item ∈ batch.items) :
    (item.id, item.externalId) ∈ batch.pairs item.contentType :=
  List.mem_map.mpr ⟨item, List.mem_filter.mpr ⟨hmem, decide_eq_true rfl⟩, rfl⟩

end Batch

/-! ### One malformed season -/

end Denn
