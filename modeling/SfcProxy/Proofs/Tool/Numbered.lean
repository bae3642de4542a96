import SfcProxy.Tool.Numbered

/-!
# Entries by number

What is found under a number after an entry has been set, added or removed.

## Main results

* `get?_put_self`, `get?_put_of_ne`: after an entry has been set
* `get?_erase_self`, `get?_erase_of_ne`: after an entry has been removed
-/

namespace SfcProxy.Tool

namespace Numbered

variable {α : Type} {number other : Nat} {entry : α}

theorem get?_cons (e : Nat × α) (entries : Numbered α) :
    get? number (e :: entries) = if number = e.1 then some e.2 else get? number entries := by
  obtain ⟨key, entry⟩ := e
  by_cases h : number = key
  · simp [get?, h]
  · simp [get?, List.lookup_cons, h, beq_false_of_ne h]

@[simp]
theorem get?_put_self (entries : Numbered α) :
    (entries.put number entry).get? number = some entry := by
  induction entries with
  | nil => simp [put, get?_cons]
  | cons e rest ih =>
    by_cases h : e.1 = number
    · simp [put, get?_cons, h]
    · simp [put, get?_cons, h, Ne.symm h, ih]

theorem get?_put_of_ne (h : other ≠ number) (entries : Numbered α) :
    (entries.put number entry).get? other = entries.get? other := by
  induction entries with
  | nil => simp [put, get?_cons, h]
  | cons e rest ih =>
    by_cases he : e.1 = number
    · simp [put, get?_cons, he, h]
    · simp [put, get?_cons, he, ih]

@[simp]
theorem get?_erase_self (entries : Numbered α) : (entries.erase number).get? number = none := by
  induction entries with
  | nil => simp [erase, get?]
  | cons e rest ih =>
    by_cases h : e.1 = number
    · simpa [erase, h] using ih
    · simpa [erase, h, get?_cons, Ne.symm h] using ih

theorem get?_erase_of_ne (h : other ≠ number) (entries : Numbered α) :
    (entries.erase number).get? other = entries.get? other := by
  induction entries with
  | nil => rfl
  | cons e rest ih =>
    by_cases he : e.1 = number
    · have hne : other ≠ e.1 := he ▸ h
      simpa [erase, he, get?_cons, hne, h] using ih
    · simp only [erase, ne_eq, he, not_false_eq_true, decide_true, List.filter_cons_of_pos,
        get?_cons]
      rw [← ih]
      rfl

theorem get?_append (entries more : Numbered α) :
    get? number (entries ++ more) = (entries.get? number).or (more.get? number) := by
  induction entries with
  | nil => simp [get?]
  | cons e rest ih =>
    by_cases h : number = e.1
    · simp [get?_cons, h]
    · simpa [get?_cons, h] using ih

end Numbered

end SfcProxy.Tool
