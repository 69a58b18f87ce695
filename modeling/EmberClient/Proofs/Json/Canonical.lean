import EmberClient.Json.Record
import Mathlib.Data.List.Induction
import Mathlib.Data.String.Basic

/-!
# The canonical document

`canonical` is meant to give one representative for each value. Its members stand in the
order of their keys, each key once (`ascending_sortMembers`), and under a key stands what
stood last under it (`valuesAt_sortMembers`). What is in that order already is left as it
is, whence

> `canonical_canonical`: a canonical document is its own representative.
-/

namespace EmberClient.Json

variable {key other name : String} {v : Json} {members others : List (String × Json)}
  {m : Option Json}

/-! ## What stands under a key -/

@[simp] theorem valuesAt_nil : valuesAt key [] = [] := rfl

@[simp] theorem valuesAt_cons :
    valuesAt key ((name, v) :: members) =
      if name = key then v :: valuesAt key members else valuesAt key members := by
  by_cases same : name = key <;> simp [valuesAt, same]

@[simp] theorem valuesAt_append :
    valuesAt key (members ++ others) = valuesAt key members ++ valuesAt key others :=
  List.filterMap_append

@[simp] theorem valuesAt_toList :
    valuesAt key (m.map fun v => (name, v)).toList =
      if name = key then m.toList else [] := by
  cases m <;> simp

/-- Another member is not seen under a key. -/
theorem valuesAt_cons_of_ne (apart : name ≠ key) :
    valuesAt key ((name, v) :: members) = valuesAt key members := by
  rw [valuesAt_cons, if_neg apart]

/-- A key that is not there has no values. -/
theorem valuesAt_eq_nil (absent : key ∉ members.map Prod.fst) : valuesAt key members = [] := by
  refine List.filterMap_eq_nil_iff.mpr fun member here => if_neg fun same => absent ?_
  exact same ▸ List.mem_map_of_mem here

/-! ## Members in order -/

/-- Members in the order of their keys, each key once. -/
def Ascending (members : List (String × Json)) : Prop :=
  members.Pairwise fun a b => a.1 < b.1

/-- Inserting a member adds that member only. -/
theorem mem_insertMember {member : String × Json} (here : member ∈ insertMember key v members) :
    member = (key, v) ∨ member ∈ members := by
  induction members with
  | nil => exact .inl (List.mem_singleton.mp here)
  | cons first rest ih =>
    rw [insertMember] at here
    split at here
    · exact List.mem_cons.mp here
    · split at here
      · exact (List.mem_cons.mp here).imp_right (List.mem_cons_of_mem _)
      · rcases List.mem_cons.mp here with rfl | later
        · exact .inr List.mem_cons_self
        · exact (ih later).imp_right (List.mem_cons_of_mem _)

/-- Members stay ascending when one is inserted. -/
theorem Ascending.insertMember (sorted : Ascending members) :
    Ascending (insertMember key v members) := by
  -- along the members, up to where the new one belongs
  induction members with
  | nil => exact List.pairwise_singleton _ _
  | cons first rest ih =>
    obtain ⟨above, tail⟩ := List.pairwise_cons.mp sorted
    rw [Json.insertMember]
    split
    · next before =>
      refine List.pairwise_cons.mpr ⟨fun member here => ?_, sorted⟩
      rcases List.mem_cons.mp here with rfl | later
      · exact before
      · exact lt_trans before (above member later)
    · next notBefore =>
      split
      · next same =>
        subst same
        exact List.pairwise_cons.mpr ⟨above, tail⟩
      · next apart =>
        refine List.pairwise_cons.mpr ⟨fun member here => ?_, ih tail⟩
        rcases mem_insertMember here with rfl | old
        · exact lt_of_le_of_ne (not_lt.mp notBefore) (Ne.symm apart)
        · exact above member old

/-- Past the last key a member is put at the end. -/
theorem insertMember_of_above (above : ∀ member ∈ members, member.1 < key) :
    insertMember key v members = members ++ [(key, v)] := by
  induction members with
  | nil => rfl
  | cons first rest ih =>
    have below := above first List.mem_cons_self
    rw [insertMember, if_neg (lt_asymm below), if_neg (ne_of_gt below),
      ih fun member here => above member (List.mem_cons_of_mem _ here), List.cons_append]

/-- Inserting a member leaves the values under other keys. -/
theorem valuesAt_insertMember (apart : other ≠ key) (v : Json) (members : List (String × Json)) :
    valuesAt other (insertMember key v members) = valuesAt other members := by
  induction members with
  | nil => exact valuesAt_cons_of_ne apart.symm
  | cons first rest ih =>
    rw [insertMember]
    split
    · exact valuesAt_cons_of_ne apart.symm
    · split
      · next same =>
        subst same
        rw [valuesAt_cons_of_ne apart.symm, valuesAt_cons_of_ne apart.symm]
      · rw [valuesAt_cons, valuesAt_cons, ih]

/-- The member that is put in its place is the only one with its key. -/
theorem Ascending.valuesAt_insertMember_self (sorted : Ascending members) :
    valuesAt key (Json.insertMember key v members) = [v] := by
  induction members with
  | nil => simp [Json.insertMember]
  | cons first rest ih =>
    obtain ⟨above, tail⟩ := List.pairwise_cons.mp sorted
    -- behind a member there are only greater names
    have later : ∀ {k : String}, k ≤ first.1 → valuesAt k rest = [] := fun {k} low =>
      valuesAt_eq_nil fun here => by
        obtain ⟨member, old, same⟩ := List.mem_map.mp here
        exact absurd (above member old) (not_lt.mpr (same ▸ low))
    rw [Json.insertMember]
    split
    · next before =>
      rw [valuesAt_cons, if_pos rfl, valuesAt_cons_of_ne (ne_of_gt before), later (le_of_lt before)]
    · split
      · next same => rw [valuesAt_cons, if_pos rfl, later (le_of_eq same)]
      · next apart => rw [valuesAt_cons_of_ne (Ne.symm apart), ih tail]

/-! ## Sorted members -/

/-- Members are put in their places one after the other. -/
theorem sortMembers_concat :
    sortMembers (members ++ [(key, v)]) = insertMember key v (sortMembers members) := by
  rw [sortMembers, List.foldl_append]
  rfl

/-- Sorted members ascend. -/
theorem ascending_sortMembers (members : List (String × Json)) : Ascending (sortMembers members) := by
  induction members using List.reverseRecOn with
  | nil => exact List.Pairwise.nil
  | append_singleton members member ih =>
    rw [sortMembers_concat]
    exact ih.insertMember

/-- Under each key stands what stood last under it. -/
theorem valuesAt_sortMembers (key : String) (members : List (String × Json)) :
    valuesAt key (sortMembers members) = (valuesAt key members).getLast?.toList := by
  induction members using List.reverseRecOn with
  | nil => rfl
  | append_singleton members member ih =>
    obtain ⟨name, v⟩ := member
    rw [sortMembers_concat, valuesAt_append]
    by_cases same : name = key
    · subst same
      rw [(ascending_sortMembers members).valuesAt_insertMember_self]
      simp
    · rw [valuesAt_insertMember (Ne.symm same), ih]
      simp [same]

/-- Members that are in order stay as they are. -/
theorem Ascending.sortMembers_eq (sorted : Ascending members) : sortMembers members = members := by
  induction members using List.reverseRecOn with
  | nil => rfl
  | append_singleton members member ih =>
    obtain ⟨front, -, below⟩ := List.pairwise_append.mp sorted
    rw [sortMembers_concat, ih front]
    exact insertMember_of_above fun earlier here => below earlier here member List.mem_cons_self

/-! ## Documents -/

theorem canonicalItems_eq_map (items : List Json) : canonicalItems items = items.map canonical := by
  induction items with
  | nil => rfl
  | cons v rest ih => rw [canonicalItems, ih, List.map_cons]

theorem canonicalMembers_eq_map (members : List (String × Json)) :
    canonicalMembers members = members.map fun member => (member.1, member.2.canonical) := by
  induction members with
  | nil => rfl
  | cons member rest ih =>
    obtain ⟨key, v⟩ := member
    rw [canonicalMembers, ih, List.map_cons]

/-- The values under a key are made canonical where they stand. -/
@[simp] theorem valuesAt_canonicalMembers (key : String) (members : List (String × Json)) :
    valuesAt key (canonicalMembers members) = (valuesAt key members).map canonical := by
  induction members with
  | nil => rfl
  | cons member rest ih =>
    obtain ⟨name, v⟩ := member
    rw [canonicalMembers, valuesAt_cons, valuesAt_cons, ih]
    split <;> rfl

/-- Under each key of a canonical object stands the canonical form of what stood last
under it. -/
theorem valuesAt_canonical (key : String) (members : List (String × Json)) :
    valuesAt key (sortMembers (canonicalMembers members)) =
      ((valuesAt key members).getLast?.map canonical).toList := by
  rw [valuesAt_sortMembers, valuesAt_canonicalMembers, List.getLast?_map]

/-- Making the values canonical does not move a member. -/
theorem canonicalMembers_insertMember :
    canonicalMembers (insertMember key v members) =
      insertMember key v.canonical (canonicalMembers members) := by
  induction members with
  | nil => rfl
  | cons first rest ih =>
    obtain ⟨k, w⟩ := first
    rw [insertMember, canonicalMembers, insertMember]
    split
    · rw [canonicalMembers, canonicalMembers]
    · split
      · rw [canonicalMembers]
      · rw [canonicalMembers, ih]

/-- It does not matter whether members are sorted before or after. -/
theorem canonicalMembers_sortMembers (members : List (String × Json)) :
    canonicalMembers (sortMembers members) = sortMembers (canonicalMembers members) := by
  induction members using List.reverseRecOn with
  | nil => rfl
  | append_singleton members member ih =>
    rw [sortMembers_concat, canonicalMembers_insertMember, ih, canonicalMembers_eq_map (_ ++ _),
      List.map_append, ← canonicalMembers_eq_map, List.map_singleton, sortMembers_concat]

mutual

/-- A canonical document is its own representative. -/
theorem canonical_canonical (v : Json) : v.canonical.canonical = v.canonical := by
  match v with
  | .arr items => rw [canonical, canonical, canonicalItems_canonicalItems items]
  | .obj members =>
    rw [canonical, canonical, canonicalMembers_sortMembers, canonicalMembers_canonicalMembers members,
      (ascending_sortMembers _).sortMembers_eq]
  | .null | .bool _ | .num _ | .str _ => rfl

/-- Items that were made canonical stay as they are. -/
theorem canonicalItems_canonicalItems (items : List Json) :
    canonicalItems (canonicalItems items) = canonicalItems items := by
  match items with
  | [] => rfl
  | v :: rest =>
    rw [canonicalItems, canonicalItems, canonical_canonical v, canonicalItems_canonicalItems rest]

theorem canonicalMembers_canonicalMembers (members : List (String × Json)) :
    canonicalMembers (canonicalMembers members) = canonicalMembers members := by
  match members with
  | [] => rfl
  | (key, v) :: rest =>
    rw [canonicalMembers, canonicalMembers, canonical_canonical v,
      canonicalMembers_canonicalMembers rest]

end

end EmberClient.Json
