import IndexCoverage.Text.CodePoint
import Mathlib.Data.List.Dedup

/-! Texts in the order in which they first appear, each once. A text that comes at the end is
new, or changes nothing. What stands under texts that appear once is found by them. -/

namespace IndexCoverage

section Lookup

variable {α : Type} {entries : List (Text × α)} {name : Text} {value : α}

theorem mem_of_lookup_eq_some (h : entries.lookup name = some value) : (name, value) ∈ entries := by
  obtain ⟨early, late, rfl, -⟩ := List.lookup_eq_some_iff.mp h
  simp

theorem lookup_eq_some_iff_mem (distinct : (entries.map Prod.fst).Nodup) :
    entries.lookup name = some value ↔ (name, value) ∈ entries := by
  refine ⟨mem_of_lookup_eq_some, fun inside => ?_⟩
  obtain ⟨early, late, rfl⟩ := List.append_of_mem inside
  refine List.lookup_eq_some_iff.mpr ⟨early, late, rfl, fun entry there => ?_⟩
  rw [List.map_append, List.map_cons] at distinct
  have apart := (List.nodup_append.mp distinct).2.2 entry.1 (List.mem_map_of_mem there) name
    (List.mem_cons_self ..)
  simpa using Ne.symm apart

end Lookup

namespace Text

def firsts (texts : List Text) : List Text := texts.reverse.dedup.reverse

theorem nodup_firsts (texts : List Text) : (firsts texts).Nodup :=
  List.nodup_reverse.mpr (List.nodup_dedup _)

theorem mem_firsts {texts : List Text} {text : Text} : text ∈ firsts texts ↔ text ∈ texts := by
  simp [firsts]

theorem firsts_concat_of_mem {texts : List Text} {text : Text} (h : text ∈ texts) :
    firsts (texts ++ [text]) = firsts texts := by
  rw [firsts, List.reverse_append]
  exact congrArg _ (List.dedup_cons_of_mem (List.mem_reverse.mpr h))

theorem firsts_concat_of_notMem {texts : List Text} {text : Text} (h : text ∉ texts) :
    firsts (texts ++ [text]) = firsts texts ++ [text] := by
  have absent : text ∉ texts.reverse := mt List.mem_reverse.mp h
  rw [firsts, List.reverse_append]
  exact (congrArg _ (List.dedup_cons_of_notMem absent)).trans List.reverse_cons

example : firsts ["b", "a", "b", "c", "a"] = (["b", "a", "c"] : List Text) := by decide

end Text
end IndexCoverage
