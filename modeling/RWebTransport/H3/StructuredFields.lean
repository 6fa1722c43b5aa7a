import RWebTransport.H3.Subprotocol
import RWebTransport.Lib.StructuredField

/-!
# Subprotocol lists

The two fields of subprotocol negotiation, written and read back.  What `sfv`
makes of a field is taken from the parsing algorithm of RFC 9651.
-/

namespace RWebTransport.H3

/-- `sfv` reads strings, and lists of strings, as RFC 9651 says. -/
structure Conforms [Codec] : Prop where
  item : ∀ (field : String) (v : List Char), StructuredField.item field.toList = some v →
    Codec.sfvItem field = some (some (String.ofList v))
  list : ∀ (field : String) (vs : List (List Char)), StructuredField.list field.toList = some vs →
    Codec.sfvList field = some (vs.map fun v => some (String.ofList v))

/-- A codec that reads nothing but strings in structured fields. -/
@[reducible] def Codec.structured : Codec :=
  { Codec.plain with
    sfvItem := fun field =>
      (StructuredField.item field.toList).map fun v => some (String.ofList v)
    sfvList := fun field =>
      (StructuredField.list field.toList).map fun vs => vs.map fun v => some (String.ofList v) }

theorem structured_conforms : @Conforms Codec.structured :=
  letI := Codec.structured
  { item := fun _ _ h => congrArg (Option.map fun v => some (String.ofList v)) h
    list := fun _ _ h => congrArg (Option.map fun vs => vs.map fun v => some (String.ofList v)) h }

/-! ## Writing -/

theorem toList_serializeSfString (s : String) :
    (serializeSfString s).toList = StructuredField.quote s.toList := String.toList_ofList

theorem toList_serializeSfStringList (items : List String) :
    (serializeSfStringList items).toList = StructuredField.join (items.map String.toList) := by
  rw [serializeSfStringList, String.toList_intercalate, List.map_map, StructuredField.join, List.map_map]
  congr 1
  exact List.map_congr_left fun s _ => toList_serializeSfString s

theorem serializeSfStringList_append {a b : List String} (ha : a ≠ []) (hb : b ≠ []) :
    serializeSfStringList (a ++ b) = serializeSfStringList a ++ ", " ++ serializeSfStringList b := by
  have ha' : a.map serializeSfString ≠ [] := by simpa using ha
  have hb' : b.map serializeSfString ≠ [] := by simpa using hb
  unfold serializeSfStringList
  rw [List.map_append, String.intercalate_append_of_ne_nil ha' hb']

/-- The fields of a request, joined as the server joins them, are one list. -/
theorem intercalate_serializeSfStringList : ∀ {groups : List (List String)}, (∀ g ∈ groups, g ≠ []) →
    ", ".intercalate (groups.map serializeSfStringList) = serializeSfStringList groups.flatten
  | [], _ => rfl
  | [g], _ => by
      rw [List.map_singleton, String.intercalate_singleton, List.flatten_cons, List.flatten_nil,
        List.append_nil]
  | g :: g' :: groups, h => by
      have hg := h g List.mem_cons_self
      have hrest : (g' :: groups).flatten ≠ [] := by
        have hg' := h g' (by simp)
        simp [hg']
      have hjoined := intercalate_serializeSfStringList fun d hd => h d (List.mem_cons_of_mem g hd)
      rw [List.map_cons] at hjoined
      have hflatten : (g :: g' :: groups).flatten = g ++ (g' :: groups).flatten := List.flatten_cons
      rw [List.map_cons, List.map_cons, String.intercalate_cons_cons, hjoined, hflatten,
        serializeSfStringList_append hg hrest]

/-! ## Reading -/

variable [Codec]

theorem parseSfStringItem_serializeSfString (hsfv : Conforms) {s : String} (h : IsPrintable s) :
    parseSfStringItem (serializeSfString s) = some s := by
  have hitem := hsfv.item (serializeSfString s) s.toList (by
    rw [toList_serializeSfString]
    exact StructuredField.item_quote h)
  rw [parseSfStringItem, hitem, String.ofList_toList]
  rfl

theorem parseSfStringList_serializeSfStringList (hsfv : Conforms) {items : List String}
    (h : ∀ s ∈ items, IsPrintable s) : parseSfStringList (serializeSfStringList items) = items := by
  have hlist := hsfv.list (serializeSfStringList items) (items.map String.toList) (by
    rw [toList_serializeSfStringList]
    refine StructuredField.list_join fun cs hcs => ?_
    obtain ⟨s, hs, rfl⟩ := List.mem_map.mp hcs
    exact h s hs)
  rw [parseSfStringList, hlist, List.map_map]
  simp [Function.comp_def]

/-- Subprotocols are read as they were written: a list in one field, a list over
several fields of a request, and the one that a response names. -/
theorem subprotocols_read_back (hsfv : Conforms) :
    (∀ items : List String, (∀ s ∈ items, IsPrintable s) →
      parseSfStringList (serializeSfStringList items) = items ∧
      ∀ groups : List (List String), groups.flatten = items → (∀ g ∈ groups, g ≠ []) →
        parseSfStringList (", ".intercalate (groups.map serializeSfStringList)) = items ∧
        ∀ headers : List Header, valuesOf wtAvailableProtocols headers =
            groups.map (fun g => asBytes (serializeSfStringList g)) →
          (Endpoint.ConnectRequest.ofHeaders headers).requested = items) ∧
    ∀ s : String, IsPrintable s → ∀ headers : List Header,
      valuesOf wtProtocol headers = [asBytes (serializeSfString s)] → wtProtocolOf headers = some s := by
  constructor
  · intro items hitems
    have hread := parseSfStringList_serializeSfStringList hsfv hitems
    refine ⟨hread, ?_⟩
    rintro groups rfl hgroups
    have hjoined : parseSfStringList (", ".intercalate (groups.map serializeSfStringList)) =
        groups.flatten := by
      rw [intercalate_serializeSfStringList hgroups, hread]
    refine ⟨hjoined, fun headers hheaders => ?_⟩
    have hfields : (valuesOf wtAvailableProtocols headers).map fromUtf8Lossy =
        groups.map serializeSfStringList := by
      rw [hheaders, List.map_map]
      refine List.map_congr_left fun g hg => ?_
      refine fromUtf8Lossy_asBytes (serializeSfStringList_ascii fun s hs => ?_)
      exact hitems s (List.mem_flatten_of_mem hg hs)
    rw [Endpoint.ConnectRequest.requested, Endpoint.ConnectRequest.protocolFields_eq, hfields, hjoined]
  · intro s hs headers hheaders
    rw [wtProtocolOf_eq, hheaders]
    simp only [fromUtf8_asBytes (serializeSfString_ascii hs), Option.bind_some, trim_serializeSfString]
    exact parseSfStringItem_serializeSfString hsfv hs

omit [Codec] in
theorem subprotocols_read_back_sample :
    letI := Codec.structured
    parseSfStringList (serializeSfStringList ["a\"b", " c\\, "]) = ["a\"b", " c\\, "] := by
  let _ := Codec.structured
  have hprintable : ∀ s ∈ ["a\"b", " c\\, "], IsPrintable s := by simp [IsPrintable]
  exact ((subprotocols_read_back structured_conforms).1 ["a\"b", " c\\, "] hprintable).1

end RWebTransport.H3
