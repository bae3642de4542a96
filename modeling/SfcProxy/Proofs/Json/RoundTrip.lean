import SfcProxy.Message
import SfcProxy.Proofs.Json.Numeral
import SfcProxy.Proofs.Session.Escape
import SfcProxy.Proofs.Session.Settling
import SfcProxy.Proofs.Utf8

/-!
# What is written is read back

The reader gives values of a certain form: the names of the members of each object are distinct,
arrays and objects do not nest too deep, and numbers with a fraction are rounded. A value in that
form that can be written is read back from its bytes as it was.

## Main definitions

* `Json.Readable`: the form of the values that the reader gives
* `Json.Restored`: a value is read back from a text

## Main results

* `Json.readable_of_read`: what is read is readable
* `Json.read_print`: what is printed is read back
* `Message.decode_encode`: a message is read back from its bytes
-/

namespace SfcProxy.Json

/-! ## Strings -/

theorem hexDigit?_digitChar : ∀ d < 16, hexDigit? (Nat.digitChar d) = some d := by
  decide

theorem stringFrom_letter (start : List Char) (read : Text) {letter c : Char}
    (h : escaped? letter = some c) (rest : List Char) :
    stringFrom start read ('\\' :: letter :: rest) = stringFrom start (.scalar c :: read) rest := by
  have hletter : letter ≠ 'u' := by
    rintro rfl
    cases h
  rw [stringFrom, h]
  · intro _ _ _ _ _ _ hu _
    exact hletter hu
  · exact hletter

/-- A control character is read back from its escape. -/
theorem stringFrom_control (start : List Char) (read : Text) {c : Char} (h : c.toNat < 0x20)
    (after : Char) (rest : List Char) :
    stringFrom start read (['\\', 'u', '0', '0', Nat.digitChar (c.toNat / 16),
        Nat.digitChar (c.toNat % 16)] ++ after :: rest)
      = stringFrom start (.scalar c :: read) (after :: rest) := by
  have hhex : hex4? '0' '0' (Nat.digitChar (c.toNat / 16)) (Nat.digitChar (c.toNat % 16))
      = some c.toNat := by
    have hzero : hexDigit? '0' = some 0 := rfl
    simp only [hex4?, hzero, hexDigit?_digitChar (c.toNat / 16) (by omega),
      hexDigit?_digitChar (c.toNat % 16) (by omega)]
    simp
    omega
  have hunit : TextUnit.ofCodePoint c.toNat = .scalar c := by
    rw [TextUnit.ofCodePoint, dif_neg (by omega), Char.ofNat_toNat]
  have hhigh : isHigh c.toNat = false := by
    rw [isHigh, Bool.and_eq_false_iff, decide_eq_false_iff_not]
    omega
  simp only [List.cons_append, List.nil_append]
  rw [stringFrom, hhex]
  dsimp only
  rw [hhigh, hunit]
  split
  · rfl
  · rfl

/-- A character is read back from how it is written. Further characters stand behind it. -/
theorem stringFrom_escapeChar (start : List Char) (read : Text) (c after : Char)
    (rest : List Char) :
    stringFrom start read (escapeChar c ++ after :: rest)
      = stringFrom start (.scalar c :: read) (after :: rest) := by
  unfold escapeChar
  split
  case h_8 hquote hbackslash _ _ _ _ _ =>
    split
    · rename_i hcontrol
      exact stringFrom_control start read hcontrol after rest
    · rename_i hplain
      rw [List.singleton_append, stringFrom, if_neg hplain]
      · exact hquote
      all_goals
        intros
        exact hbackslash ‹_›
  all_goals exact stringFrom_letter start read rfl _

/-- The characters of a string without its opening quote. -/
def stringBody (cs : List Char) : List Char :=
  cs.flatMap escapeChar ++ ['"']

theorem printString_ofChars (cs : List Char) :
    printString (Text.ofChars cs) = Text.ofChars ('"' :: stringBody cs) := by
  have hflat : (Text.ofChars cs).flatMap escapeUnit = Text.ofChars (cs.flatMap escapeChar) := by
    induction cs with
    | nil => rfl
    | cons c cs ih =>
      rw [Text.ofChars, List.map_cons, List.flatMap_cons, ← Text.ofChars, ih, escapeUnit,
        List.flatMap_cons, Text.ofChars, Text.ofChars, Text.ofChars, List.map_append]
  rw [printString, hflat, stringBody, Text.ofChars, Text.ofChars, List.map_cons, List.map_append]
  rfl

/-- A string is read back from how it is written. -/
theorem string_body (cs rest : List Char) :
    string (stringBody cs ++ rest) = .ok (Text.ofChars cs, rest) := by
  have hfrom : ∀ start read, stringFrom start read (stringBody cs ++ rest)
      = .ok (read.reverse ++ Text.ofChars cs, rest) := by
    intro start
    induction cs with
    | nil =>
      intro read
      rw [stringBody, List.flatMap_nil, List.nil_append, List.singleton_append, stringFrom]
      simp [Text.ofChars]
    | cons c cs ih =>
      intro read
      have hbody : stringBody (c :: cs) ++ rest = escapeChar c ++ (stringBody cs ++ rest) := by
        rw [stringBody, stringBody, List.flatMap_cons]
        simp only [List.append_assoc]
      obtain ⟨after, tail, htail⟩ : ∃ after tail, stringBody cs ++ rest = after :: tail :=
        List.exists_cons_of_ne_nil (by simp [stringBody])
      rw [hbody, htail, stringFrom_escapeChar, ← htail, ih, List.reverse_cons, List.append_assoc]
      rfl
  exact hfrom _ []

/-! ## The form of what is read -/

/-- The form of the values that the reader gives: the names of the members of each object are
distinct, arrays and objects nest at most `depth` deep, and numbers with a fraction are rounded. -/
inductive Readable : Nat → Json → Prop
  | null {depth : Nat} : Readable depth .null
  | bool {depth : Nat} (b : Bool) : Readable depth (.bool b)
  | int {depth : Nat} (n : Int) : Readable depth (.int n)
  | real {depth : Nat} {x : Double} (rounded : x.Rounded) : Readable depth (.real x)
  | str {depth : Nat} (s : Text) : Readable depth (.str s)
  | arr {depth : Nat} {items : List Json} (parts : ∀ v ∈ items, Readable depth v) :
      Readable (depth + 1) (.arr items)
  | obj {depth : Nat} {members : Members} (names : (members.map (·.1)).Nodup)
      (parts : ∀ entry ∈ members, Readable depth entry.2) : Readable (depth + 1) (.obj members)

theorem Numeral.readable_value {n : Numeral} {v : Json} (h : n.value = .ok v) (depth : Nat) :
    Readable depth v := by
  unfold Numeral.value at h
  split at h
  · split at h
    · cases h
    · cases h
      exact .int _
  · cases h
    exact .real (Double.rounded_ofDecimal _ _ _ _)

theorem readable_scalar {cs rest : List Char} {v : Json} (h : scalar cs = .ok (v, rest))
    (depth : Nat) : Readable depth v := by
  unfold scalar at h
  split at h
  · rename_i cs'
    cases hstring : string cs' with
    | error e =>
      rw [hstring] at h
      cases h
    | ok found =>
      rw [hstring] at h
      cases h
      exact .str _
  · cases h
    exact .null
  · cases h
    exact .bool _
  · cases h
    exact .bool _
  · cases h
    exact .real trivial
  · cases h
    exact .real trivial
  · cases h
    exact .real trivial
  · split at h
    · cases h
    · rename_i n rest' hnumeral
      cases hvalue : n.value with
      | error e =>
        rw [hvalue] at h
        cases h
      | ok v =>
        rw [hvalue] at h
        cases h
        exact Numeral.readable_value hvalue depth

theorem mem_set {name : Text} {v : Json} {members : Members} {entry : Text × Json}
    (h : entry ∈ set name v members) : entry.2 = v ∨ entry ∈ members := by
  induction members with
  | nil => exact .inl (by rw [List.mem_singleton.mp h])
  | cons first rest ih =>
    obtain ⟨key, old⟩ := first
    rw [set] at h
    split at h
    · rcases List.mem_cons.mp h with rfl | h
      · exact .inl rfl
      · exact .inr (List.mem_cons_of_mem _ h)
    · rcases List.mem_cons.mp h with rfl | h
      · exact .inr List.mem_cons_self
      · exact (ih h).imp_right (List.mem_cons_of_mem _)

/-- Giving a member a value keeps the form. -/
theorem Readable.set {depth : Nat} {members : Members} (h : Readable (depth + 1) (.obj members))
    (name : Text) {v : Json} (hv : Readable depth v) :
    Readable (depth + 1) (.obj (Json.set name v members)) := by
  cases h with
  | obj names parts =>
    refine .obj (nodup_keys_set names name v) fun entry hentry => ?_
    rcases mem_set hentry with hvalue | hentry
    · exact hvalue ▸ hv
    · exact parts entry hentry

section Containers

variable {depth : Nat} {item : Reader Json}
  (hitem : ∀ cs v rest, item cs = .ok (v, rest) → Readable depth v)
include hitem

theorem readable_items (budget : Nat) : ∀ {read vs : List Json} {cs rest : List Char},
    (∀ v ∈ read, Readable depth v) → items item budget read cs = .ok (vs, rest) →
      ∀ v ∈ vs, Readable depth v := by
  induction budget with
  | zero => nofun
  | succ budget ih =>
    intro read vs cs rest hread h
    obtain ⟨⟨v, rest'⟩, hv, h⟩ := bind_eq_ok h
    have hread : ∀ w ∈ v :: read, Readable depth w :=
      List.forall_mem_cons.mpr ⟨hitem cs v rest' hv, hread⟩
    dsimp only at h
    split at h
    · cases h
      exact fun w hw => hread w (List.mem_reverse.mp hw)
    · exact ih hread h
    · cases h

theorem readable_array {cs rest : List Char} {v : Json} (h : array item cs = .ok (v, rest)) :
    Readable (depth + 1) v := by
  unfold array at h
  split at h
  · cases h
    exact .arr (by simp)
  · obtain ⟨⟨vs, rest'⟩, hvs, h⟩ := bind_eq_ok h
    cases h
    exact .arr (readable_items hitem _ (by simp) hvs)

theorem readable_members (budget : Nat) : ∀ {read ms : Members} {cs rest : List Char},
    Readable (depth + 1) (.obj read) → members item budget read cs = .ok (ms, rest) →
      Readable (depth + 1) (.obj ms) := by
  induction budget with
  | zero => nofun
  | succ budget ih =>
    intro read ms cs rest hread h
    obtain ⟨⟨name, rest'⟩, -, h⟩ := bind_eq_ok h
    obtain ⟨⟨v, rest''⟩, hv, h⟩ := bind_eq_ok h
    have hread := hread.set name (hitem _ _ _ hv)
    dsimp only at h
    split at h
    · cases h
      exact hread
    · exact ih hread h
    · cases h

theorem readable_object {cs rest : List Char} {v : Json} (h : object item cs = .ok (v, rest)) :
    Readable (depth + 1) v := by
  have hnone : Readable (depth + 1) (.obj []) := .obj (by simp) nofun
  unfold object at h
  split at h
  · cases h
    exact hnone
  · obtain ⟨⟨ms, rest'⟩, hms, h⟩ := bind_eq_ok h
    cases h
    exact readable_members hitem _ hnone hms

end Containers

theorem readable_value (depth : Nat) : ∀ {cs rest : List Char} {v : Json},
    value depth cs = .ok (v, rest) → Readable depth v := by
  induction depth with
  | zero =>
    intro cs rest v h
    rw [value] at h
    dsimp only at h
    split at h
    · cases h
    · cases h
    · exact readable_scalar h 0
  | succ depth ih =>
    intro cs rest v h
    rw [value] at h
    dsimp only at h
    split at h
    · exact readable_array (fun _ _ _ => ih) h
    · exact readable_object (fun _ _ _ => ih) h
    · exact readable_scalar h _

/-- What is read is readable. -/
theorem readable_of_read {limit : Nat} {source : List Char} {v : Json}
    (h : read source limit = .ok v) : Readable limit v := by
  unfold read at h
  dsimp only at h
  split at h
  · rename_i w houtcome
    cases h
    split at houtcome
    · cases houtcome
    · split at houtcome
      · cases houtcome
      · rename_i w' rest hvalue
        split at houtcome
        · cases houtcome
          exact readable_value _ hvalue
        · cases houtcome
  · cases h

/-! ## The front of a value -/

/-- No value begins with a blank, a closing bracket or a byte order mark. -/
theorem value_front {depth : Nat} {cs rest : List Char} {v : Json}
    (h : value depth cs = .ok (v, rest)) :
    ∃ c tail, cs = c :: tail ∧ isBlank c = false ∧ c ≠ ']' ∧ c ≠ '\uFEFF' := by
  cases cs with
  | nil => cases depth <;> cases h
  | cons c tail =>
    have hnone : ∀ c ∈ [' ', '\t', '\n', '\r', ']', '\uFEFF'], value depth (c :: tail)
        = .error (.malformed .value (c :: tail)) := by
      simp only [List.forall_mem_cons]
      cases depth with
      | zero | succ => exact ⟨rfl, rfl, rfl, rfl, rfl, rfl, nofun⟩
    have hfront : c ∉ [' ', '\t', '\n', '\r', ']', '\uFEFF'] := by
      intro hmem
      rw [hnone c hmem] at h
      cases h
    exact ⟨c, tail, rfl, by simp_all [isBlank], by simp_all, by simp_all⟩

theorem skipBlank_of_value {depth : Nat} {cs rest : List Char} {v : Json}
    (h : value depth cs = .ok (v, rest)) : skipBlank cs = cs := by
  obtain ⟨c, tail, rfl, hblank, -, -⟩ := value_front h
  rw [skipBlank, List.dropWhile_cons_of_neg (by simp [hblank])]

theorem value_of_scalar {cs rest : List Char} {v : Json} (h : scalar cs = .ok (v, rest))
    (depth : Nat) : value depth cs = .ok (v, rest) := by
  cases depth with
  | zero =>
    rw [value]
    dsimp only
    split
    · cases h
    · cases h
    · exact h
  | succ depth =>
    rw [value]
    dsimp only
    split
    · cases h
    · cases h
    · exact h

/-! ## Reading back -/

/-- The text of a value is read as the value, in front of anything that ends it. -/
def Restored (depth : Nat) (v : Json) (cs : List Char) : Prop :=
  v.print = Text.ofChars cs ∧ ∀ rest, Ends rest → value depth (cs ++ rest) = .ok (v, rest)

theorem Restored.ne_nil {depth : Nat} {v : Json} {cs : List Char} (h : Restored depth v cs) :
    cs ≠ [] := by
  rintro rfl
  obtain ⟨_, _, hnil, -⟩ := value_front (h.2 [] trivial)
  cases hnil

theorem ends_comma (rest : List Char) : Ends (',' :: rest) := .inl rfl

theorem ends_bracket (rest : List Char) : Ends (']' :: rest) := .inr (.inl rfl)

theorem ends_brace (rest : List Char) : Ends ('}' :: rest) := .inr (.inr rfl)

theorem notMem_of_nodup_append {read rest : Members} {name : Text} {v : Json}
    (h : ((read ++ (name, v) :: rest).map (·.1)).Nodup) : name ∉ read.map (·.1) := by
  rw [List.map_append, List.map_cons, List.nodup_append] at h
  exact fun hmem => h.2.2 _ hmem _ List.mem_cons_self rfl

section Steps

variable {depth : Nat} {cs rest : List Char} {v : Json}

theorem items_last (h : Restored depth v cs) (budget : Nat) (read : List Json)
    (rest : List Char) :
    items (value depth) (budget + 1) read (cs ++ ']' :: rest)
      = .ok ((v :: read).reverse, rest) := by
  rw [items, h.2 _ (ends_bracket rest)]
  rfl

theorem items_next (h : Restored depth v cs) (budget : Nat) (read : List Json)
    (rest : List Char) :
    items (value depth) (budget + 1) read (cs ++ ',' :: rest)
      = items (value depth) budget (v :: read) (skipBlank rest) := by
  rw [items, h.2 _ (ends_comma rest)]
  rfl

/-- A member as it is written. -/
def memberText (name cs : List Char) : List Char :=
  '"' :: (stringBody name ++ ':' :: cs)

theorem memberName_text (name : List Char) (h : Restored depth v cs) (hrest : Ends rest) :
    memberName (memberText name cs ++ rest) = .ok (Text.ofChars name, cs ++ rest) := by
  have hread : memberName (memberText name cs ++ rest)
      = .ok (Text.ofChars name, skipBlank (cs ++ rest)) := by
    rw [memberText, List.cons_append, List.append_assoc, List.cons_append, memberName, string_body]
    rfl
  rw [hread, skipBlank_of_value (h.2 rest hrest)]

theorem members_last (name : List Char) (h : Restored depth v cs) (budget : Nat) (read : Members)
    (rest : List Char) :
    members (value depth) (budget + 1) read (memberText name cs ++ '}' :: rest)
      = .ok (set (Text.ofChars name) v read, rest) := by
  rw [members, memberName_text name h (ends_brace rest)]
  dsimp only [bind, Except.bind]
  rw [h.2 _ (ends_brace rest)]
  rfl

theorem members_next (name : List Char) (h : Restored depth v cs) (budget : Nat) (read : Members)
    (rest : List Char) :
    members (value depth) (budget + 1) read (memberText name cs ++ ',' :: rest)
      = members (value depth) budget (set (Text.ofChars name) v read) (skipBlank rest) := by
  rw [members, memberName_text name h (ends_comma rest)]
  dsimp only [bind, Except.bind]
  rw [h.2 _ (ends_comma rest)]
  rfl

end Steps

/-- The items of an array are read back up to the closing bracket. -/
theorem exists_items_text {depth : Nat} (v : Json) (vs : List Json)
    (h : ∀ w ∈ v :: vs, ∃ cs, Restored depth w cs) :
    ∃ cs, Text.join [.scalar ','] (printItems (v :: vs)) = Text.ofChars cs ∧
      vs.length < cs.length ∧ ∀ budget read rest, vs.length ≤ budget →
        items (value depth) (budget + 1) read (cs ++ ']' :: rest)
          = .ok (read.reverse ++ v :: vs, rest) := by
  induction vs generalizing v with
  | nil =>
    obtain ⟨cs, hcs⟩ := h v List.mem_cons_self
    refine ⟨cs, ?_, List.length_pos_of_ne_nil hcs.ne_nil, fun budget read rest _ => ?_⟩
    · simpa [printItems, Text.join] using hcs.1
    · rw [items_last hcs, List.reverse_cons]
  | cons w vs ih =>
    obtain ⟨cs, hcs⟩ := h v List.mem_cons_self
    obtain ⟨tail, htail, hlength, hread⟩ := ih w fun u hu => h u (List.mem_cons_of_mem _ hu)
    refine ⟨cs ++ ',' :: tail, ?_, ?_, fun budget read rest hbudget => ?_⟩
    · rw [printItems, printItems, Text.join_cons_cons, ← printItems, htail, hcs.1]
      simp [Text.ofChars]
    · simp only [List.length_append, List.length_cons]
      omega
    · obtain ⟨budget, rfl⟩ := Nat.exists_eq_add_of_lt (Nat.zero_lt_of_lt hbudget)
      rw [Nat.zero_add] at hbudget ⊢
      have hrest := hread budget (v :: read) rest (Nat.le_of_succ_le_succ hbudget)
      have hblank : skipBlank (tail ++ ']' :: rest) = tail ++ ']' :: rest := by
        obtain ⟨⟨_, _⟩, hw, -⟩ := bind_eq_ok hrest
        exact skipBlank_of_value hw
      rw [List.append_assoc, List.cons_append, items_next hcs, hblank, hrest,
        List.reverse_cons, List.append_assoc]
      rfl

/-- The members of an object are read back up to the closing brace. -/
theorem exists_members_text {depth : Nat} (entry : Text × Json) (ms : Members)
    (h : ∀ e ∈ entry :: ms, (∃ name, e.1 = Text.ofChars name) ∧ ∃ cs, Restored depth e.2 cs) :
    ∃ cs, Text.join [.scalar ','] (printMembers (entry :: ms)) = Text.ofChars ('"' :: cs) ∧
      ms.length ≤ cs.length ∧ ∀ budget read rest, ms.length ≤ budget →
        ((read ++ entry :: ms).map (·.1)).Nodup →
          members (value depth) (budget + 1) read ('"' :: cs ++ '}' :: rest)
            = .ok (read ++ entry :: ms, rest) := by
  -- The names differ, so that a member that is read goes behind those that were read before.
  induction ms generalizing entry with
  | nil =>
    obtain ⟨name, v⟩ := entry
    obtain ⟨⟨name, rfl⟩, cs, hcs⟩ := h _ List.mem_cons_self
    refine ⟨stringBody name ++ ':' :: cs, ?_, Nat.zero_le _, fun budget read rest _ hnodup => ?_⟩
    · rw [printMembers, printMembers, printString_ofChars, hcs.1]
      simp [Text.join, Text.ofChars]
    · rw [← memberText, members_last name hcs, set_of_notMem (notMem_of_nodup_append hnodup)]
  | cons next ms ih =>
    obtain ⟨name, v⟩ := entry
    obtain ⟨⟨name, rfl⟩, cs, hcs⟩ := h _ List.mem_cons_self
    obtain ⟨tail, htail, hlength, hread⟩ := ih next fun e he => h e (List.mem_cons_of_mem _ he)
    refine ⟨stringBody name ++ ':' :: (cs ++ ',' :: '"' :: tail), ?_, ?_,
      fun budget read rest hbudget hnodup => ?_⟩
    · rw [printMembers, printMembers, Text.join_cons_cons, ← printMembers, htail, hcs.1,
        printString_ofChars]
      simp [Text.ofChars]
    · simp only [List.length_append, List.length_cons]
      omega
    · obtain ⟨budget, rfl⟩ := Nat.exists_eq_add_of_lt (Nat.zero_lt_of_lt hbudget)
      rw [Nat.zero_add] at hbudget ⊢
      have htext : '"' :: (stringBody name ++ ':' :: (cs ++ ',' :: '"' :: tail)) ++ '}' :: rest
          = memberText name cs ++ ',' :: ('"' :: tail ++ '}' :: rest) := by
        simp [memberText]
      have hblank : skipBlank ('"' :: tail ++ '}' :: rest) = '"' :: tail ++ '}' :: rest := rfl
      rw [htext, members_next name hcs, hblank, set_of_notMem (notMem_of_nodup_append hnodup),
        hread budget _ rest (Nat.le_of_succ_le_succ hbudget) (by simpa using hnodup),
        List.append_assoc]
      rfl

theorem array_of_items {depth budget : Nat} {vs : List Json} {cs rest : List Char}
    (h : items (value depth) (budget + 1) [] cs = .ok (vs, rest))
    (hlength : cs.length = budget + 1) : array (value depth) cs = .ok (.arr vs, rest) := by
  obtain ⟨⟨_, _⟩, hv, -⟩ := bind_eq_ok h
  obtain ⟨c, tail, rfl, -, hbracket, -⟩ := value_front hv
  rw [array, skipBlank_of_value hv]
  split
  · rename_i hcons
    exact absurd (List.cons.inj hcons).1 hbracket
  · rw [hlength, h]
    rfl

theorem exists_restored_arr {depth : Nat} {vs : List Json}
    (h : ∀ w ∈ vs, ∃ cs, Restored depth w cs) : ∃ cs, Restored (depth + 1) (.arr vs) cs := by
  cases vs with
  | nil => exact ⟨['[', ']'], rfl, fun rest _ => rfl⟩
  | cons v vs =>
    obtain ⟨cs, htext, hlength, hread⟩ := exists_items_text v vs h
    refine ⟨'[' :: (cs ++ [']']), ?_, fun rest _ => ?_⟩
    · rw [print, htext]
      simp [Text.ofChars]
    · have hitems := hread (cs.length + rest.length) [] rest (by omega)
      rw [List.cons_append, List.append_assoc, List.singleton_append, value]
      exact array_of_items hitems (by simp only [List.length_append, List.length_cons]; omega)

theorem exists_restored_obj {depth : Nat} {ms : Members} (hnames : (ms.map (·.1)).Nodup)
    (h : ∀ e ∈ ms, (∃ name, e.1 = Text.ofChars name) ∧ ∃ cs, Restored depth e.2 cs) :
    ∃ cs, Restored (depth + 1) (.obj ms) cs := by
  cases ms with
  | nil => exact ⟨['\x7b', '\x7d'], rfl, fun rest _ => rfl⟩
  | cons entry ms =>
    obtain ⟨cs, htext, hlength, hread⟩ := exists_members_text entry ms h
    refine ⟨'\x7b' :: ('"' :: cs ++ ['\x7d']), ?_, fun rest _ => ?_⟩
    · rw [print, htext]
      simp [Text.ofChars]
    · have hmembers := hread (cs.length + rest.length + 1) [] rest (by omega) hnames
      have hobject : object (value depth) ('"' :: cs ++ '\x7d' :: rest) = (do
          let result ← members (value depth) ('"' :: cs ++ '\x7d' :: rest).length []
            ('"' :: cs ++ '\x7d' :: rest)
          return (.obj result.1, result.2)) := rfl
      have hcount : ('"' :: cs ++ '\x7d' :: rest).length = cs.length + rest.length + 1 + 1 := by
        simp only [List.length_append, List.length_cons]
        omega
      rw [hcount, hmembers] at hobject
      rw [List.cons_append, List.append_assoc, List.singleton_append, value]
      exact hobject

theorem exists_chars {t : Text} (h : ¬ ∃ i, .surrogate i ∈ t) : ∃ cs, t = Text.ofChars cs := by
  rw [← Text.chars?_eq_none_iff, ← ne_eq, Option.ne_none_iff_exists'] at h
  exact h.imp fun cs hcs => Text.chars?_eq_some_iff.mp hcs

/-- A value in the form of what is read is read back if it can be written. -/
theorem Readable.exists_restored {depth : Nat} {v : Json} (h : Readable depth v)
    (hwritable : ¬ Unwritable v) : ∃ cs, Restored depth v cs := by
  have hscalar : ∀ {depth : Nat} {v : Json} (cs : List Char), v.print = Text.ofChars cs →
      (∀ rest, Ends rest → scalar (cs ++ rest) = .ok (v, rest)) → ∃ cs, Restored depth v cs :=
    fun cs hprint hread => ⟨cs, hprint, fun rest hrest => value_of_scalar (hread rest hrest) _⟩
  induction h with
  | null => exact hscalar "null".toList rfl fun rest _ => rfl
  | bool b =>
    cases b with
    | false => exact hscalar "false".toList rfl fun rest _ => rfl
    | true => exact hscalar "true".toList rfl fun rest _ => rfl
  | int n =>
    have hbelow : ∀ limit k, limit = k → ¬ Nat.pow 10 k ≤ n.natAbs → n.natAbs < 10 ^ limit := by
      rintro limit _ rfl
      exact Nat.not_le.mp
    have hn := hbelow digitLimit 4300 rfl (mt .digits hwritable)
    refine hscalar ((if decide (n < 0) then ['-'] else []) ++ Nat.toDigits 10 n.natAbs) ?_ ?_
    · rw [print, Text.decimal]
      split <;> simp_all [Text.ofNat, Text.ofChars]
    · intro rest hrest
      rw [List.append_assoc, scalar_decimal hn hrest]
  | @real _ x rounded =>
    cases x with
    | finite negative m e => exact hscalar _ rfl fun rest hrest => scalar_finite rounded hrest
    | infinite negative =>
      cases negative with
      | false => exact hscalar _ rfl fun rest _ => rfl
      | true => exact hscalar _ rfl fun rest _ => rfl
    | nan => exact hscalar _ rfl fun rest _ => rfl
  | str s =>
    obtain ⟨cs, rfl⟩ := exists_chars fun hsurrogate => hwritable (unwritable_str_iff.mpr hsurrogate)
    refine hscalar ('"' :: stringBody cs) (printString_ofChars cs) fun rest _ => ?_
    rw [List.cons_append, scalar, string_body]
    rfl
  | arr parts ih =>
    exact exists_restored_arr fun w hw => ih w hw fun hpart => hwritable (.item hw hpart)
  | obj names parts ih =>
    refine exists_restored_obj names fun entry hentry => ⟨exists_chars ?_, ih entry hentry ?_⟩
    · rintro ⟨i, hi⟩
      exact hwritable (.name hentry hi)
    · exact fun hpart => hwritable (.member hentry hpart)

/-- What is printed is read back. -/
theorem read_print {limit : Nat} {v : Json} (h : Readable limit v) (hwritable : ¬ Unwritable v) :
    ∃ cs, v.print = Text.ofChars cs ∧ read cs limit = .ok v := by
  obtain ⟨cs, hprint, hread⟩ := h.exists_restored hwritable
  have hvalue := hread [] trivial
  rw [List.append_nil] at hvalue
  obtain ⟨c, tail, rfl, -, -, hmark⟩ := value_front hvalue
  refine ⟨c :: tail, hprint, ?_⟩
  rw [read, skipBlank_of_value hvalue, hvalue]
  · rfl
  · rintro _ ⟨⟩
    exact hmark rfl

end SfcProxy.Json

namespace SfcProxy.Message

theorem readable_of_decode {limit : Nat} {body : List UInt8} {message : Members}
    (h : decode body limit = .object message) : (Json.obj message).Readable limit := by
  unfold decode at h
  split at h
  · cases h
  · split at h
    · cases h
      exact Json.readable_of_read ‹_›
    all_goals cases h

/-- A message in the form of what is read is read back from its bytes. -/
theorem decode_encode {limit : Nat} {message : Members} {bytes : List UInt8}
    (h : (Json.obj message).Readable limit) (hbytes : encode message = .ok bytes) :
    decode bytes limit = .object message := by
  have hwritable : ¬ (Json.obj message).Unwritable := by
    rw [← Json.encode_error_iff]
    rintro ⟨e, he⟩
    rw [encode, he] at hbytes
    cases hbytes
  obtain ⟨cs, hprint, hread⟩ := Json.read_print h hwritable
  have hcs : bytes = Utf8.encodeChars cs := by
    unfold encode Json.encode at hbytes
    split at hbytes
    · cases hbytes
    · rw [hprint, Utf8.encode, Text.chars?_ofChars] at hbytes
      cases hbytes
      rfl
  rw [decode, hcs, Utf8.decode_encodeChars]
  dsimp only
  rw [hread]

end SfcProxy.Message
