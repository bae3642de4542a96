import SfcProxy.Proofs.Tool.Regex
import SfcProxy.Tool.Regex.Reader

/-!
# Regular expressions as they are read

The reader refuses repetitions that ask for more than they allow. So whatever it reads is searched
for as it should be, unless it refers back to groups.

## Main definitions

* `Regex.isOrdered`: the bounds of all repetitions are in order

## Main results

* `isOrdered_of_read`: what is read has its bounds in order
* `search_of_read`: a search for what has been read
-/

namespace SfcProxy.Tool.Regex

/-! ## Bounds in order -/

/-- No repetition asks for more than it allows. -/
def isOrdered : Regex → Bool
  | seq a b | alt a b => a.isOrdered && b.isOrdered
  | rep body least most => body.isOrdered && most.all (least ≤ ·)
  | group _ body => body.isOrdered
  | _ => true

theorem isPlain_of_isOrdered {r : Regex} (ordered : r.isOrdered = true)
    (back : r.refersBack = false) : r.isPlain = true := by
  induction r with
  | seq a b iha ihb | alt a b iha ihb =>
    simp only [isOrdered, Bool.and_eq_true] at ordered
    simp only [refersBack, Bool.or_eq_false_iff] at back
    simp only [isPlain, iha ordered.1 back.1, ihb ordered.2 back.2, Bool.and_self]
  | rep body least most ih =>
    simp only [isOrdered, Bool.and_eq_true] at ordered
    simp only [isPlain, ih ordered.1 back, ordered.2, Bool.and_self]
  | group number body ih => exact ih ordered back
  | back number => cases back
  | empty | one _ | edge _ => rfl

/-- If a reader succeeds, what it has read is in order. -/
def Orders {α : Type} (result : Except Fault (Regex × α)) : Prop :=
  ∀ r a, result = .ok (r, a) → r.isOrdered = true

section Orders

variable {α β : Type}

theorem Orders.ok {r : Regex} {a : α} (h : r.isOrdered = true) :
    Orders (.ok (r, a) : Except Fault (Regex × α)) := by
  intro r' a' heq
  cases heq
  exact h

theorem Orders.error {fault : Fault} : Orders (.error fault : Except Fault (Regex × α)) := by
  intro r a heq
  cases heq

theorem Orders.bind {first : Except Fault β} {next : β → Except Fault (Regex × α)}
    (h : ∀ b, first = .ok b → Orders (next b)) : Orders (first >>= next) := by
  cases hfirst : first with
  | error fault => exact .error
  | ok b => exact h b hfirst

end Orders

/-! ## The reader -/

/-- Bounds pass the last test of the reader only if they are in order. -/
theorem all_of_checked {other : Bool} {least least' : Nat} {most most' : Option Nat}
    {rest rest' : List Char}
    (h : (if (other || most.any (· < least)) = true then .error .badInterval
      else .ok (least, most, rest)) = (.ok (least', most', rest') : Except Fault _)) :
    most'.all (least' ≤ ·) = true := by
  split at h
  next => cases h
  next hbounds =>
    cases h
    simp only [Bool.or_eq_true, not_or] at hbounds
    cases most with
    | none => rfl
    | some limit => simpa using hbounds.2

theorem interval_ordered {extended : Bool} {cs rest : List Char} {least : Nat} {most : Option Nat}
    (h : interval extended cs = .ok (least, most, rest)) : most.all (least ≤ ·) = true := by
  unfold interval at h
  dsimp only at h
  split at h
  next => cases h
  next => exact all_of_checked h

theorem orders_repetitions (extended : Bool) {r : Regex} (h : r.isOrdered = true) (budget : Nat)
    (cs : List Char) : Orders (repetitions extended r budget cs) := by
  induction budget generalizing r cs with
  | zero => exact .ok h
  | succ budget ih =>
    rw [repetitions]
    refine .bind ?_
    rintro ⟨sign, rest⟩ -
    split
    next => exact ih (by simp [isOrdered, h]) _
    next => exact ih (by simp [isOrdered, h]) _
    next => exact ih (by simp [isOrdered, h]) _
    next =>
      refine .bind ?_
      rintro ⟨least, most, rest⟩ hinterval
      exact ih (by simp [isOrdered, h, interval_ordered hinterval]) _
    next => exact .ok h

/-- A part that is put behind what has been read. -/
theorem isOrdered_extend {read part : Regex} (hread : read.isOrdered = true)
    (hpart : part.isOrdered = true) :
    (if read = .empty then part else .seq read part).isOrdered = true := by
  split
  next => exact hpart
  next => simp [isOrdered, hread, hpart]

section Parts

variable {extended : Bool} {budget : Nat}
  (ihalternatives : ∀ depth groups cs, Orders (alternatives extended depth budget groups cs))
  (ihbranch : ∀ depth atStart groups (read : Regex) cs, read.isOrdered = true →
    Orders (branch extended depth budget atStart groups read cs))

include ihalternatives ihbranch

theorem orders_alternatives_succ (depth groups : Nat) (cs : List Char) :
    Orders (alternatives extended depth (budget + 1) groups cs) := by
  rw [alternatives]
  refine .bind ?_
  rintro ⟨first, groups, rest⟩ hfirst
  have hordered := ihbranch depth true _ .empty cs rfl _ _ hfirst
  refine .bind ?_
  rintro ⟨sign, rest⟩ -
  split
  next =>
    refine .bind ?_
    rintro ⟨second, groups, rest⟩ hsecond
    have hsecond := ihalternatives depth _ _ _ _ hsecond
    exact .ok (by simp [isOrdered, hordered, hsecond])
  next => exact .ok hordered

/-- A sign ends a branch, is out of place, or adds a part that may be repeated. -/
theorem orders_branch_succ (depth : Nat) (atStart : Bool) (groups : Nat) {read : Regex}
    (hread : read.isOrdered = true) (cs : List Char) :
    Orders (branch extended depth (budget + 1) atStart groups read cs) := by
  have hextend : ∀ (part : Regex) (groups : Nat) (rest : List Char), part.isOrdered = true →
      Orders (repetitions extended part budget rest >>= fun p =>
        branch extended depth budget false groups
          (if read = .empty then p.1 else .seq read p.1) p.2) := by
    intro part groups rest hpart
    refine .bind ?_
    rintro ⟨part, rest⟩ hrepetitions
    have hpart := orders_repetitions extended hpart budget _ _ _ hrepetitions
    exact ihbranch _ _ _ _ _ (isOrdered_extend hread hpart)
  rw [branch]
  refine .bind ?_
  rintro ⟨sign, rest⟩ -
  dsimp only
  split
  next =>
    split
    next => exact .ok hread
    next => exact .error
  next => exact .ok hread
  next =>
    split
    next => exact .error
    next => exact .ok hread
  next =>
    refine .bind ?_
    rintro ⟨inner, groups, rest⟩ hinner
    have hinner := ihalternatives _ _ _ _ _ hinner
    refine .bind ?_
    rintro ⟨sign, rest⟩ -
    split
    next => exact hextend _ _ _ hinner
    next => exact .error
  next =>
    split
    next => exact ihbranch _ _ _ _ _ (isOrdered_extend hread rfl)
    next => exact hextend _ _ _ rfl
  next =>
    split
    next => exact ihbranch _ _ _ _ _ (isOrdered_extend hread rfl)
    next => exact hextend _ _ _ rfl
  next =>
    split
    next => exact hextend _ _ _ rfl
    next => exact .error
  next => exact .error
  next => exact .error
  next => exact .error
  next => exact hextend _ _ _ rfl
  next => exact hextend _ _ _ rfl
  next => exact hextend _ _ _ rfl
  next =>
    split
    next => exact hextend _ _ _ rfl
    next => exact .error

end Parts

theorem orders_parts (extended : Bool) (budget : Nat) :
    (∀ depth groups cs, Orders (alternatives extended depth budget groups cs)) ∧
    ∀ depth atStart groups (read : Regex) cs, read.isOrdered = true →
      Orders (branch extended depth budget atStart groups read cs) := by
  induction budget with
  | zero => exact ⟨fun _ _ _ => .ok rfl, fun _ _ _ _ _ hread => .ok hread⟩
  | succ budget ih =>
    obtain ⟨ihalternatives, ihbranch⟩ := ih
    exact ⟨orders_alternatives_succ ihalternatives ihbranch,
      fun depth atStart groups _ cs hread =>
        orders_branch_succ ihalternatives ihbranch depth atStart groups hread cs⟩

/-- What is read has its bounds in order. -/
theorem isOrdered_of_read {extended : Bool} {cs : List Char} {r : Regex} {groups : Nat}
    (h : read extended cs = .ok (r, groups)) : r.isOrdered = true := by
  have horders : Orders (read extended cs) := by
    refine .bind ?_
    rintro ⟨r, groups, rest⟩ halternatives
    exact .ok ((orders_parts extended _).1 _ _ _ _ _ halternatives)
  exact horders r groups h

/-- **A search for what has been read.** Unless a regular expression refers back to groups, what is
found is the longest of the matches that start as far left as possible, and nothing is found only
where there is no match at all. -/
theorem search_of_read {extended : Bool} {cs : List Char} {r : Regex} {groups : Nat}
    (h : read extended cs = .ok (r, groups)) (back : r.refersBack = false) (mode : Mode) (t : Text) :
    (∃ m n, search mode r t = some m ∧ n ≤ t.length ∧ m.start = (Cursor.front t).skip n ∧
      Longest mode r m.start m.stop ∧ m.text = between m.start m.stop ∧
      ∀ k < n, ∀ d, ¬ Matches mode r ((Cursor.front t).skip k) d) ∨
    search mode r t = none ∧ ∀ n ≤ t.length, ∀ d, ¬ Matches mode r ((Cursor.front t).skip n) d := by
  have plain := isPlain_of_isOrdered (isOrdered_of_read h) back
  cases hsearch : search mode r t with
  | none => exact .inr ⟨rfl, (search_eq_none_iff plain).mp hsearch⟩
  | some m =>
    obtain ⟨n, hn, hrest⟩ := search_eq_some plain hsearch
    exact .inl ⟨m, n, rfl, hn, hrest⟩

end SfcProxy.Tool.Regex
