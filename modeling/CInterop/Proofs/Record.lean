import Mathlib.Data.List.Nodup
import Mathlib.Data.List.Perm.Basic
import CInterop.Value

/-!
# Records

A record has the entries that it was made of, in the order of their keys.
-/

namespace CInterop.Value

theorem insertEntry_perm {key : String} {value : Value} {entries : List (String × Value)}
    (fresh : key ∉ entries.map Prod.fst) :
    (insertEntry key value entries).Perm ((key, value) :: entries) := by
  induction entries with
  | nil => exact .refl _
  | cons entry rest ih =>
    obtain ⟨other, old⟩ := entry
    simp only [List.map_cons, List.mem_cons, not_or] at fresh
    unfold insertEntry
    split
    · exact .refl _
    · rw [if_neg fresh.1]
      exact ((ih fresh.2).cons _).trans (.swap _ _ _)

/-- Entries with distinct keys are all kept. -/
theorem ofEntries_perm {entries : List (String × Value)}
    (distinct : (entries.map Prod.fst).Nodup) :
    ∃ sorted, ofEntries entries = record sorted ∧ sorted.Perm entries := by
  -- The fold inserts into what was sorted before, where no key of the rest occurs.
  have inserted : ∀ (entries sorted : List (String × Value)),
      (entries.map Prod.fst ++ sorted.map Prod.fst).Nodup →
        (entries.foldl (fun sorted entry => insertEntry entry.1 entry.2 sorted) sorted).Perm
          (entries ++ sorted) := by
    intro entries
    induction entries with
    | nil => exact fun _ _ => .refl _
    | cons entry rest ih =>
      intro sorted distinct
      obtain ⟨key, value⟩ := entry
      simp only [List.map_cons, List.cons_append, List.nodup_cons, List.mem_append, not_or]
        at distinct
      obtain ⟨⟨not_rest, not_sorted⟩, distinct⟩ := distinct
      have step : (insertEntry key value sorted).Perm ((key, value) :: sorted) :=
        insertEntry_perm not_sorted
      have keys : (rest.map Prod.fst ++ (insertEntry key value sorted).map Prod.fst).Nodup := by
        have moved : (rest.map Prod.fst ++ (insertEntry key value sorted).map Prod.fst).Perm
            (key :: (rest.map Prod.fst ++ sorted.map Prod.fst)) :=
          ((step.map Prod.fst).append_left _).trans List.perm_middle
        refine moved.nodup_iff.mpr (List.nodup_cons.mpr ⟨?_, distinct⟩)
        exact fun found => (List.mem_append.mp found).elim not_rest not_sorted
      exact (ih _ keys).trans ((step.append_left rest).trans List.perm_middle)
  refine ⟨_, rfl, ?_⟩
  have all := inserted entries [] (by simpa using distinct)
  rw [List.append_nil] at all
  exact all

theorem lookup_of_mem {entries : List (String × Value)} (distinct : (entries.map Prod.fst).Nodup)
    {key : String} {value : Value} (mem : (key, value) ∈ entries) :
    entries.lookup key = some value := by
  induction entries with
  | nil => cases mem
  | cons entry rest ih =>
    rw [List.map_cons, List.nodup_cons] at distinct
    rcases List.mem_cons.mp mem with rfl | later
    · exact List.lookup_cons_self
    · have other : key ≠ entry.1 := fun same =>
        distinct.1 (same ▸ List.mem_map_of_mem later)
      rw [List.lookup_cons, beq_false_of_ne other]
      exact ih distinct.2 later

/-- Each entry is found under its key. -/
theorem get?_ofEntries {entries : List (String × Value)}
    (distinct : (entries.map Prod.fst).Nodup) {key : String} {value : Value}
    (mem : (key, value) ∈ entries) : (ofEntries entries).get? key = some value := by
  obtain ⟨sorted, same, perm⟩ := ofEntries_perm distinct
  rw [same]
  exact lookup_of_mem ((perm.map Prod.fst).nodup_iff.mpr distinct) (perm.mem_iff.mpr mem)

/-- Records tell the entries that they were made of, where the keys and their order are known. -/
theorem ofEntries_injective {entries others : List (String × Value)}
    (distinct : (entries.map Prod.fst).Nodup)
    (keys : entries.map Prod.fst = others.map Prod.fst)
    (same : ofEntries entries = ofEntries others) : entries = others := by
  obtain ⟨sorted, first, perm⟩ := ofEntries_perm distinct
  obtain ⟨sorted', second, perm'⟩ := ofEntries_perm (keys ▸ distinct)
  have together : sorted = sorted' := Value.record.inj (first.symm.trans (same.trans second))
  have moved : entries.Perm others := perm.symm.trans (together ▸ perm')
  apply List.ext_getElem moved.length_eq
  intro i below below'
  have key : entries[i].1 = others[i].1 := by
    have looked := congrArg (·[i]?) keys
    simpa [below, below'] using looked
  have found : entries[i] ∈ others := moved.mem_iff.mp (List.getElem_mem below)
  exact List.inj_on_of_nodup_map (keys ▸ distinct) found (List.getElem_mem below') key

end CInterop.Value
