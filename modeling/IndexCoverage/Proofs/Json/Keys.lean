import IndexCoverage.Json.Reader
import IndexCoverage.Proofs.Log.Outcome
import Mathlib.Data.List.Nodup

/-! Objects that are read have every key once, however often it is written: the field that is there
takes the new value. -/

namespace IndexCoverage.Json

def Value.isLeaf : Value → Bool
  | arr _ => false
  | obj _ => false
  | _ => true

inductive Value.KeysOnce : Value → Prop
  | leaf {value : Value} (simple : value.isLeaf = true) : KeysOnce value
  | arr {items : List Value} (each : ∀ item ∈ items, KeysOnce item) : KeysOnce (.arr items)
  | obj {fields : List (Text × Value)} (distinct : (fields.map Prod.fst).Nodup)
    (each : ∀ field ∈ fields, KeysOnce field.2) : KeysOnce (.obj fields)

namespace Value.KeysOnce

theorem empty : KeysOnce (.obj []) := .obj List.nodup_nil (List.forall_mem_nil _)

theorem of_mem_items {items : List Value} (h : KeysOnce (.arr items)) :
    ∀ item ∈ items, KeysOnce item := by
  cases h with
  | leaf simple => nomatch simple
  | arr each => exact each

theorem nodup_keys {fields : List (Text × Value)} (h : KeysOnce (.obj fields)) :
    (fields.map Prod.fst).Nodup := by
  cases h with
  | leaf simple => nomatch simple
  | obj distinct _ => exact distinct

theorem of_mem_fields {fields : List (Text × Value)} (h : KeysOnce (.obj fields)) :
    ∀ field ∈ fields, KeysOnce field.2 := by
  cases h with
  | leaf simple => nomatch simple
  | obj _ each => exact each

end Value.KeysOnce

section Put

variable {α : Type} {key : Text} {value : α} {fields : List (Text × α)}

theorem mem_put {field : Text × α} (h : field ∈ put key value fields) :
    field = (key, value) ∨ field ∈ fields := by
  induction fields with
  | nil => exact .inl (List.mem_singleton.mp h)
  | cons first rest ih =>
    rw [put] at h
    split at h
    · exact (List.mem_cons.mp h).imp_right (List.mem_cons_of_mem _)
    · rcases List.mem_cons.mp h with rfl | later
      · exact .inr (List.mem_cons_self ..)
      · exact (ih later).imp_right (List.mem_cons_of_mem _)

theorem nodup_keys_put (distinct : (fields.map Prod.fst).Nodup) :
    ((put key value fields).map Prod.fst).Nodup := by
  induction fields with
  | nil => simp [put]
  | cons first rest ih =>
    obtain ⟨name, old⟩ := first
    obtain ⟨absent, distinct⟩ := List.nodup_cons.mp distinct
    rw [put]
    split
    · next same => exact List.nodup_cons.mpr ⟨same ▸ absent, distinct⟩
    · next other =>
      refine List.nodup_cons.mpr ⟨fun inside => ?_, ih distinct⟩
      obtain ⟨field, within, rfl⟩ := List.mem_map.mp inside
      rcases mem_put within with rfl | there
      · exact other rfl
      · exact absent (List.mem_map.mpr ⟨field, there, rfl⟩)

end Put

theorem Value.KeysOnce.put {key : Text} {value : Value} {fields : List (Text × Value)}
    (before : KeysOnce (.obj fields)) (h : value.KeysOnce) :
    KeysOnce (.obj (Json.put key value fields)) := by
  refine .obj (nodup_keys_put before.nodup_keys) fun field inside => ?_
  rcases mem_put inside with rfl | there
  · exact h
  · exact before.of_mem_fields field there

theorem isLeaf_readNumber {negative : Bool} {s rest : Text} {value : Value}
    (h : readNumber negative s = .ok (value, rest)) : value.isLeaf = true := by
  unfold readNumber at h
  grind [Value.isLeaf]

theorem isLeaf_readScalar {s rest : Text} {value : Value}
    (h : readScalar s = .ok (value, rest)) : value.isLeaf = true := by
  unfold readScalar at h
  simp only at h
  split at h
  · next found words =>
    obtain rfl := Except.ok.inj h
    simp only [Option.orElse_eq_orElse, Option.orElse_eq_or, Option.or_eq_some_iff,
      Option.map_eq_some_iff, Prod.mk.injEq] at words
    grind [Value.isLeaf]
  · split at h
    · exact isLeaf_readNumber h
    · exact isLeaf_readNumber h

/-- What is read with some fuel has every key once; fields are added to such as have. -/
structure ReadsOnce (fuel : Nat) : Prop where
  value {depth : Nat} {s rest : Text} {value : Value}
    (h : readValue fuel depth s = .ok (value, rest)) : value.KeysOnce
  items {depth : Nat} {s rest : Text} {items : List Value}
    (h : readItems fuel depth s = .ok (items, rest)) : (Value.arr items).KeysOnce
  fields {depth : Nat} {s rest : Text} {before fields : List (Text × Value)}
    (once : (Value.obj before).KeysOnce)
    (h : readFields fuel depth before s = .ok (fields, rest)) : (Value.obj fields).KeysOnce

namespace ReadsOnce

variable {fuel depth : Nat} {s rest : Text}

theorem value_succ {value : Value} (ih : ReadsOnce fuel)
    (h : readValue (fuel + 1) depth s = .ok (value, rest)) : value.KeysOnce := by
  unfold readValue at h
  split at h
  · split at h
    · obtain ⟨rfl, -⟩ := Prod.mk.inj (Except.ok.inj h)
      exact .leaf rfl
    · cases h
  · split at h
    · cases h
    · split at h
      · obtain ⟨rfl, -⟩ := Prod.mk.inj (Except.ok.inj h)
        exact .arr nofun
      · obtain ⟨⟨items, left⟩, inner, h⟩ := do_eq_ok_iff.mp h
        obtain ⟨rfl, -⟩ := Prod.mk.inj (Except.ok.inj h)
        exact ih.items inner
  · split at h
    · cases h
    · split at h
      · obtain ⟨rfl, -⟩ := Prod.mk.inj (Except.ok.inj h)
        exact .empty
      · obtain ⟨⟨fields, left⟩, inner, h⟩ := do_eq_ok_iff.mp h
        obtain ⟨rfl, -⟩ := Prod.mk.inj (Except.ok.inj h)
        exact ih.fields .empty inner
  · exact .leaf (isLeaf_readScalar h)

theorem items_succ {items : List Value} (ih : ReadsOnce fuel)
    (h : readItems (fuel + 1) depth s = .ok (items, rest)) : (Value.arr items).KeysOnce := by
  unfold readItems at h
  obtain ⟨⟨item, left⟩, first, h⟩ := do_eq_ok_iff.mp h
  have once : item.KeysOnce := ih.value first
  simp only at h
  split at h
  · obtain ⟨⟨others, left⟩, later, h⟩ := do_eq_ok_iff.mp h
    obtain ⟨rfl, -⟩ := Prod.mk.inj (Except.ok.inj h)
    exact .arr (List.forall_mem_cons.mpr ⟨once, (ih.items later).of_mem_items⟩)
  · obtain ⟨rfl, -⟩ := Prod.mk.inj (Except.ok.inj h)
    exact .arr (List.forall_mem_singleton.mpr once)
  · cases h

theorem fields_succ {before fields : List (Text × Value)} (ih : ReadsOnce fuel)
    (once : (Value.obj before).KeysOnce)
    (h : readFields (fuel + 1) depth before s = .ok (fields, rest)) :
    (Value.obj fields).KeysOnce := by
  unfold readFields at h
  split at h
  · split at h
    · cases h
    · split at h
      · obtain ⟨⟨value, left⟩, first, h⟩ := do_eq_ok_iff.mp h
        have more (key : Text) : (Value.obj (put key value before)).KeysOnce :=
          once.put (ih.value first)
        simp only at h
        split at h
        · exact ih.fields (more _) h
        · obtain ⟨rfl, -⟩ := Prod.mk.inj (Except.ok.inj h)
          exact more _
        · cases h
      · cases h
  · cases h

end ReadsOnce

theorem readsOnce (fuel : Nat) : ReadsOnce fuel := by
  induction fuel with
  | zero => exact ⟨nofun, nofun, nofun⟩
  | succ fuel ih => exact ⟨ih.value_succ, ih.items_succ, ih.fields_succ⟩

theorem keysOnce_readText {depth : Nat} {s : Text} {value : Value}
    (h : readText depth s = .ok value) : value.KeysOnce := by
  unfold readText at h
  obtain ⟨⟨found, rest⟩, read, h⟩ := do_eq_ok_iff.mp h
  simp only at h
  split at h
  · obtain rfl := Except.ok.inj h
    exact (readsOnce _).value read
  · cases h

theorem keysOnce_readBytes {depth : Nat} {bytes : Bytes} {value : Value}
    (h : readBytes depth bytes = .ok value) : value.KeysOnce := by
  unfold readBytes at h
  split at h
  · exact keysOnce_readText h
  · cases h

end IndexCoverage.Json
