import Mathlib.Tactic.Common
import SfcProxy.Lru

/-!
# What a map with recent entries finds

Writing an entry changes the value of its key alone, finding one changes no value, and a bound that
drops nothing changes nothing. The entries after an operation are old ones or the one that was
written.

## Main results

* `Lru.get?_insert`, `Lru.get?_of_use?`: the value of a key after an operation
* `Lru.mem_insert`, `Lru.forall_mem_of_use?`: the entries after an operation
* `Lru.trim_eq_self`, `Lru.trim_of_neg`, `Lru.get?_trim_append`, `Lru.get?_trim_insert`: what a bound
  leaves
-/

namespace SfcProxy

namespace Lru

variable {α β : Type} [DecidableEq α]

theorem get?_insert (key other : α) (value : β) (entries : Lru α β) :
    (entries.insert key value).get? other
      = if other = key then some value else entries.get? other := by
  unfold get? insert
  rw [List.find?_append]
  split
  · rename_i h
    have hnone : (entries.filter (·.1 ≠ key)).find? (·.1 = other) = none := by
      rw [List.find?_eq_none]
      intro entry hentry
      have := (List.mem_filter.mp hentry).2
      simp_all
    rw [hnone, Option.none_or, h]
    simp
  · rename_i h
    have hlast : ([(key, value)] : Lru α β).find? (·.1 = other) = none := by
      simp [Ne.symm h]
    rw [hlast, Option.or_none]
    congr 1
    rw [List.find?_filter]
    congr 1
    funext entry
    simp only [Bool.decide_and, decide_not]
    by_cases he : entry.1 = other <;> simp [he, h]

theorem get?_of_use? {key : α} {value : β} {entries used : Lru α β}
    (h : entries.use? key = some (value, used)) :
    entries.get? key = some value ∧ ∀ other, used.get? other = entries.get? other := by
  obtain ⟨found, hfound, heq⟩ := Option.map_eq_some_iff.mp h
  obtain ⟨rfl, rfl⟩ := Prod.mk.inj heq
  refine ⟨hfound, fun other => ?_⟩
  rw [get?_insert]
  split
  · rename_i hkey
    rw [hkey, hfound]
  · rfl

theorem mem_insert {key : α} {value : β} {entries : Lru α β} {entry : α × β} :
    entry ∈ entries.insert key value ↔
      entry ∈ entries ∧ entry.1 ≠ key ∨ entry = (key, value) := by
  simp [insert]

theorem get?_of_absent {key : α} {entries : Lru α β} (h : ∀ entry ∈ entries, entry.1 ≠ key) :
    entries.get? key = none := by
  rw [get?, Option.map_eq_none_iff, List.find?_eq_none]
  exact fun entry hentry hkey => h entry hentry (of_decide_eq_true hkey)

theorem mem_of_get? {key : α} {value : β} {entries : Lru α β} (h : entries.get? key = some value) :
    (key, value) ∈ entries := by
  obtain ⟨entry, hfind, rfl⟩ := Option.map_eq_some_iff.mp h
  have hkey : entry.1 = key := by simpa using List.find?_some hfind
  exact hkey ▸ List.mem_of_find?_eq_some hfind

/-- What holds of all entries still does after one of them is used. -/
theorem forall_mem_of_use? {P : α × β → Prop} {key : α} {value : β} {entries used : Lru α β}
    (h : entries.use? key = some (value, used)) (hall : ∀ entry ∈ entries, P entry) :
    P (key, value) ∧ ∀ entry ∈ used, P entry := by
  obtain ⟨found, hfound, heq⟩ := Option.map_eq_some_iff.mp h
  obtain ⟨rfl, rfl⟩ := Prod.mk.inj heq
  have hentry := hall _ (mem_of_get? hfound)
  refine ⟨hentry, fun entry hmem => ?_⟩
  rcases mem_insert.mp hmem with ⟨hmem, -⟩ | rfl
  · exact hall entry hmem
  · exact hentry

omit [DecidableEq α] in
theorem mem_of_mem_trim {bound : Int} {entries : Lru α β} {entry : α × β}
    (h : entry ∈ entries.trim bound) : entry ∈ entries :=
  List.mem_of_mem_drop h

omit [DecidableEq α] in
theorem trim_eq_self {bound : Int} {entries : Lru α β} (h : entries.evicted bound = []) :
    entries.trim bound = entries := by
  unfold evicted at h
  unfold trim
  rcases List.take_eq_nil_iff.mp h with hzero | rfl
  · rw [hzero, List.drop_zero]
  · exact List.drop_nil

omit [DecidableEq α] in
theorem trim_of_neg {bound : Int} (h : bound < 0) (entries : Lru α β) : entries.trim bound = [] := by
  rw [trim, Int.toNat_of_nonpos (Int.le_of_lt h), Nat.sub_zero, List.drop_length]

/-- A bound keeps the newest entries, and older ones of other keys do not matter then. -/
theorem get?_trim_append {bound : Int} {key : α} {front back : Lru α β}
    (hback : (back.length : Int) ≤ bound) (hfront : ∀ entry ∈ front, entry.1 ≠ key) :
    ((front ++ back).trim bound).get? key = back.get? key := by
  have hdropped : (front ++ back).length - bound.toNat ≤ front.length := by
    rw [List.length_append]
    omega
  have hnone : (front.drop ((front ++ back).length - bound.toNat)).find? (·.1 = key) = none := by
    rw [List.find?_eq_none]
    intro entry hentry
    simpa using hfront entry (List.mem_of_mem_drop hentry)
  rw [trim, List.drop_append_of_le_length hdropped, get?, List.find?_append, hnone, Option.none_or,
    get?]

/-- What was just written is found within any bound that leaves room for it. -/
theorem get?_trim_insert {bound : Int} (hbound : 1 ≤ bound) (key : α) (value : β)
    (entries : Lru α β) : ((entries.insert key value).trim bound).get? key = some value := by
  refine (get?_trim_append hbound fun entry hentry => ?_).trans (by simp [get?])
  simpa using (List.mem_filter.mp hentry).2

end Lru

end SfcProxy
