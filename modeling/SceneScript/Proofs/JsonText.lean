/-
  SceneScript.Proofs.JsonText — a sound value is read back from its text.

  The compact text of a value has no blanks, so the first character of each part tells
  the reader what comes (`first_char`), and a value ends where a comma or a closing
  bracket follows it or nothing does. A character of a quoted text is written in one of
  three ways (`escapeChar_cases`), each of which the two passes over a quoted text undo.
  The steps of the reader are stated once for each way a container goes on
  (`itemsOf_last`, `itemsOf_more`, `membersOf_last`, `membersOf_more`); from these the
  whole value follows by induction on it (`value_chars`), with as many steps to go as
  its text is long. So reading a printed value gives the value (`read_print`).
-/
import SceneScript.Json.Printer
import SceneScript.Json.Reader
import SceneScript.Proofs.NumeralText
import SceneScript.Proofs.SoundValue

namespace SceneScript.Json

variable {rest : List Char}

/-! ## Quoted texts -/

theorem hexDigit?_digitChar {k : Nat} (h : k < 16) : hexDigit? (Nat.digitChar k) = some k := by
  have hall : ∀ k < 16, hexDigit? (Nat.digitChar k) = some k := by decide
  exact hall k h

/-- A character stands for itself, or for a letter after a backslash, or for its code. -/
theorem escapeChar_cases (c : Char) :
    (escapeChar c = [c] ∧ c ≠ '"' ∧ c ≠ '\\' ∧ ¬c.toNat < 0x20) ∨
    (∃ e, escapeChar c = ['\\', e] ∧ e ≠ 'u' ∧ escaped? e = some c) ∨
    (∃ a b, escapeChar c = ['\\', 'u', '0', '0', a, b] ∧ hex4? '0' '0' a b = some c.toNat ∧ c.toNat < 0x20) := by
  have hcode : ∀ n, c.toNat = n → c = Char.ofNat n := by
    intro n hn
    rw [← hn, Char.ofNat_toNat]
  unfold escapeChar
  split
  · rename_i h
    exact .inr (.inl ⟨'"', rfl, by decide, by rw [h]; rfl⟩)
  split
  · rename_i h
    exact .inr (.inl ⟨'\\', rfl, by decide, by rw [h]; rfl⟩)
  split
  · rename_i h
    exact .inr (.inl ⟨'n', rfl, by decide, by rw [h]; rfl⟩)
  split
  · rename_i h
    exact .inr (.inl ⟨'r', rfl, by decide, by rw [h]; rfl⟩)
  split
  · rename_i h
    exact .inr (.inl ⟨'t', rfl, by decide, by rw [h]; rfl⟩)
  split
  · rename_i h
    exact .inr (.inl ⟨'b', rfl, by decide, by rw [hcode 8 h]; rfl⟩)
  split
  · rename_i h
    exact .inr (.inl ⟨'f', rfl, by decide, by rw [hcode 12 h]; rfl⟩)
  split
  · rename_i h
    refine .inr (.inr ⟨_, _, rfl, ?_, h⟩)
    have hzero : hexDigit? '0' = some 0 := rfl
    rw [hex4?, hzero, hexDigit?_digitChar (by omega), hexDigit?_digitChar (by omega)]
    simp only [Option.some.injEq]
    omega
  · exact .inl ⟨rfl, ‹_›, ‹_›, ‹_›⟩

theorem textContent_quote (rest : List Char) : textContent none ('"' :: rest) = .ok [] := by
  rw [textContent.eq_def]
  simp

theorem afterText_quote (rest : List Char) : afterText ('"' :: rest) = .ok rest := by
  rw [afterText.eq_def]
  simp

theorem textContent_escapeChar (c : Char) (rest : List Char) :
    textContent none (escapeChar c ++ rest) = (textContent none rest).map (c :: ·) := by
  rcases escapeChar_cases c with ⟨hc, hquote, hslash, hcontrol⟩ | ⟨e, hc, he, hletter⟩ | ⟨a, b, hc, hcode, hlow⟩
  · rw [hc, List.singleton_append, textContent.eq_def]
    simp only [hquote, hslash, hcontrol, if_false, Option.isSome_none, Bool.false_eq_true]
  · rw [hc, List.cons_append, List.singleton_append, textContent.eq_def]
    simp only [if_true]
    split
    · cases ‹e :: rest = []›
    · exact absurd (List.cons.inj ‹_›).1 he
    · exact absurd (List.cons.inj ‹_›).1 he
    · rename_i heq
      cases heq
      simp only [hletter]
  · have htrail : isTrailSurrogate c.toNat = false := by
      simp only [isTrailSurrogate, Bool.and_eq_false_iff, decide_eq_false_iff_not]
      omega
    have hlead : isLeadSurrogate c.toNat = false := by
      simp only [isLeadSurrogate, Bool.and_eq_false_iff, decide_eq_false_iff_not]
      omega
    rw [hc, textContent.eq_def]
    simp only [List.cons_append, List.nil_append, if_true, hcode, htrail, hlead, Bool.false_eq_true, if_false,
      Char.ofNat_toNat]

theorem afterText_escapeChar (c : Char) (rest : List Char) : afterText (escapeChar c ++ rest) = afterText rest := by
  rcases escapeChar_cases c with ⟨hc, hquote, hslash, hcontrol⟩ | ⟨e, hc, he, hletter⟩ | ⟨a, b, hc, hcode, -⟩
  · rw [hc, List.singleton_append, afterText.eq_def]
    simp only [hquote, hslash, hcontrol, if_false]
  · rw [hc, List.cons_append, List.singleton_append, afterText.eq_def]
    simp only [Char.reduceEq, if_false, if_true]
    split
    · cases ‹e :: rest = []›
    · exact absurd (List.cons.inj ‹_›).1 he
    · exact absurd (List.cons.inj ‹_›).1 he
    · rename_i heq
      cases heq
      simp only [hletter, Option.isSome_some, if_true]
  · rw [hc, afterText.eq_def]
    simp only [List.cons_append, List.nil_append, Char.reduceEq, if_false, if_true, hcode]

theorem textContent_escaped (cs rest : List Char) :
    textContent none (cs.flatMap escapeChar ++ '"' :: rest) = .ok cs := by
  induction cs with
  | nil => exact textContent_quote rest
  | cons c cs ih =>
    rw [List.flatMap_cons, List.append_assoc, textContent_escapeChar, ih]
    rfl

theorem afterText_escaped (cs rest : List Char) : afterText (cs.flatMap escapeChar ++ '"' :: rest) = .ok rest := by
  induction cs with
  | nil => exact afterText_quote rest
  | cons c cs ih => rw [List.flatMap_cons, List.append_assoc, afterText_escapeChar, ih]

/-- A quoted text is read from after its opening quote. -/
theorem quoted_escaped (s : String) (rest : List Char) :
    quoted (s.toList.flatMap escapeChar ++ '"' :: rest) = (.text s, some rest) := by
  simp only [quoted, textContent_escaped, afterText_escaped, String.ofList_toList]

/-! ## First characters -/

/-- The first character is no blank and closes nothing. -/
def Opens (cs : List Char) : Prop := ∃ c cs', cs = c :: cs' ∧ isSpace c = false ∧ c ≠ ']' ∧ c ≠ '\x7d'

theorem Opens.append {cs : List Char} (h : Opens cs) (rest : List Char) : Opens (cs ++ rest) := by
  obtain ⟨c, cs', rfl, hc⟩ := h
  exact ⟨c, cs' ++ rest, rfl, hc⟩

theorem Opens.length_pos {cs : List Char} (h : Opens cs) : 0 < cs.length := by
  obtain ⟨c, cs', rfl, -⟩ := h
  exact Nat.succ_pos _

theorem skipSpace_cons {c : Char} (h : isSpace c = false) (rest : List Char) : skipSpace (c :: rest) = c :: rest :=
  List.dropWhile_cons_of_neg (by rw [h]; exact Bool.false_ne_true)

/-- A digit starts a number and nothing else. -/
theorem ne_of_isDigit {d : Char} (h : d.isDigit = true) :
    isSpace d = false ∧ d ≠ '"' ∧ d ≠ '[' ∧ d ≠ '\x7b' ∧ d ≠ '-' ∧ d ≠ ']' ∧ d ≠ '\x7d' := by
  have hne : ∀ c : Char, c.isDigit = false → d ≠ c := by
    rintro c hc rfl
    rw [h] at hc
    cases hc
  refine ⟨?_, hne _ rfl, hne _ rfl, hne _ rfl, hne _ rfl, hne _ rfl, hne _ rfl⟩
  simp [isSpace, hne ' ' rfl, hne '\n' rfl, hne '\t' rfl, hne '\r' rfl]

theorem opens_number {n : Numeral} (hn : n.Sound) : Opens (Numeral.chars n) := by
  obtain ⟨negative, digits, hchars, hread⟩ := reads_number hn
  cases negative with
  | true => exact ⟨'-', digits, hchars, rfl, by decide, by decide⟩
  | false =>
    obtain ⟨d, ds, hds, hd⟩ := digit_first (hread Stops.nil)
    obtain ⟨hspace, -, -, -, -, hsquare, hcurly⟩ := ne_of_isDigit hd
    rw [List.append_nil] at hds
    exact ⟨d, ds, hchars.trans hds, hspace, hsquare, hcurly⟩

theorem opens_chars {j : Json} (h : Sound j) : Opens (chars j) := by
  cases j with
  | null => exact ⟨'n', _, rfl, rfl, by decide, by decide⟩
  | flag b => cases b <;> exact ⟨_, _, rfl, rfl, by decide, by decide⟩
  | number n => exact opens_number h
  | text s => exact ⟨'"', _, rfl, rfl, by decide, by decide⟩
  | array items close => exact ⟨'[', _, rfl, rfl, by decide, by decide⟩
  | object members close => exact ⟨'\x7b', _, rfl, rfl, by decide, by decide⟩
  | broken place => exact h.elim

/-! ## Steps of the reader -/

variable {steps : Nat} {cs : List Char}

theorem value_number {n : Numeral} (hn : n.Sound) (hrest : Stops rest) :
    value (steps + 1) (Numeral.chars n ++ rest) = (.number n, some rest) := by
  obtain ⟨negative, digits, hchars, hread⟩ := reads_number hn
  have hread : numeral negative (digits ++ rest) = (.number n, some rest) := hread hrest
  cases negative with
  | true =>
    rw [hchars, if_pos rfl, List.cons_append, value, skipSpace_cons rfl]
    exact hread
  | false =>
    obtain ⟨d, ds, hds, hd⟩ := digit_first hread
    obtain ⟨hspace, hquote, hsquare, hcurly, hminus, -, -⟩ := ne_of_isDigit hd
    rw [hchars, if_neg Bool.false_ne_true, hds, value, skipSpace_cons hspace]
    simp only [hquote, hsquare, hcurly, hminus, hd, if_false, if_true]
    rw [← hds, hread]

theorem value_text (s : String) (rest : List Char) :
    value (steps + 1) (textChars s ++ rest) = (.text s, some rest) := by
  rw [textChars, List.cons_append, List.append_assoc, value, skipSpace_cons rfl]
  exact quoted_escaped s rest

theorem value_list {items : List Json} (hcs : Opens cs) (h : itemsOf steps cs = (items, .closed, some rest)) :
    value (steps + 1) ('[' :: cs) = (list items, some rest) := by
  obtain ⟨c, cs, rfl, hspace, hsquare, -⟩ := hcs
  rw [value, skipSpace_cons rfl]
  simp only [Char.reduceEq, if_false, if_true, skipSpace_cons hspace, hsquare, h]
  rfl

theorem value_object {members : List (Json × Json)} (hcs : Opens cs)
    (h : membersOf steps cs = (members, .closed, some rest)) :
    value (steps + 1) ('\x7b' :: cs) = (.object members .closed, some rest) := by
  obtain ⟨c, cs, rfl, hspace, -, hcurly⟩ := hcs
  rw [value, skipSpace_cons rfl]
  simp only [Char.reduceEq, if_false, if_true, skipSpace_cons hspace, hcurly, h]

theorem itemsOf_last {j : Json} (h : value steps cs = (j, some (']' :: rest))) :
    itemsOf (steps + 1) cs = ([j], .closed, some rest) := by
  rw [itemsOf, h]
  rfl

theorem itemsOf_more {j : Json} {js : List Json} {cs' : List Char} (h : value steps cs = (j, some (',' :: cs')))
    (hcs' : Opens cs') (hjs : itemsOf steps cs' = (js, .closed, some rest)) :
    itemsOf (steps + 1) cs = (j :: js, .closed, some rest) := by
  obtain ⟨c, cs', rfl, hspace, hsquare, -⟩ := hcs'
  rw [itemsOf, h]
  simp only [skipSpace_cons (rfl : isSpace ',' = false), Char.reduceEq, if_false, if_true, skipSpace_cons hspace,
    hsquare, hjs]

theorem membersOf_last {name : String} {v : Json} (h : value steps cs = (v, some ('\x7d' :: rest))) :
    membersOf (steps + 1) (textChars name ++ ':' :: cs) = ([(.text name, v)], .closed, some rest) := by
  rw [textChars, List.cons_append, List.append_assoc, membersOf]
  simp only [List.singleton_append, quoted_escaped, skipSpace_cons (rfl : isSpace ':' = false), if_true, h,
    skipSpace_cons (rfl : isSpace '\x7d' = false)]

theorem membersOf_more {name : String} {v : Json} {members : List (Json × Json)} {cs' : List Char}
    (h : value steps cs = (v, some (',' :: cs'))) (hcs' : Opens cs')
    (hmembers : membersOf steps cs' = (members, .closed, some rest)) :
    membersOf (steps + 1) (textChars name ++ ':' :: cs) = ((.text name, v) :: members, .closed, some rest) := by
  obtain ⟨c, cs', rfl, hspace, -, hcurly⟩ := hcs'
  rw [textChars, List.cons_append, List.append_assoc, membersOf]
  simp only [List.singleton_append, quoted_escaped, skipSpace_cons (rfl : isSpace ':' = false), if_true, h,
    skipSpace_cons (rfl : isSpace ',' = false), Char.reduceEq, if_false, skipSpace_cons hspace, hcurly, hmembers]

/-! ## Values -/

theorem itemChars_cons (j i : Json) (js : List Json) :
    itemChars (j :: i :: js) = chars j ++ ',' :: itemChars (i :: js) :=
  rfl

theorem memberChars_cons (k v : Json) (m : Json × Json) (ms : List (Json × Json)) :
    memberChars ((k, v) :: m :: ms) = chars k ++ ':' :: (chars v ++ ',' :: memberChars (m :: ms)) :=
  rfl

theorem opens_itemChars {js : List Json} (h : ItemsSound js) (hne : js ≠ []) : Opens (itemChars js) := by
  cases js with
  | nil => exact absurd rfl hne
  | cons j js =>
    cases js with
    | nil => exact opens_chars h.1
    | cons i js => exact (opens_chars h.1).append _

theorem opens_memberChars {ms : List (Json × Json)} (h : MembersSound ms) (hne : ms ≠ []) : Opens (memberChars ms) := by
  cases ms with
  | nil => exact absurd rfl hne
  | cons m ms =>
    obtain ⟨k, v⟩ := m
    obtain ⟨⟨name, rfl⟩, -, -⟩ := h
    have hname : Opens (textChars name) := ⟨'"', _, rfl, rfl, by decide, by decide⟩
    cases ms with
    | nil => exact hname.append _
    | cons m ms => exact hname.append _

-- A container takes one step for each of its brackets and commas, and its parts are read with the steps that are left.
mutual

/-- A value is read from its text, whatever follows the value, with as many steps as the text is long. -/
theorem value_chars : ∀ {j : Json} {steps : Nat} {rest : List Char}, Sound j → Stops rest →
    (chars j).length ≤ steps → value steps (chars j ++ rest) = (j, some rest)
  | j, 0, _, h, _, hsteps => absurd hsteps (Nat.not_le.mpr (opens_chars h).length_pos)
  | .null, _ + 1, _, _, _, _ => rfl
  | .flag true, _ + 1, _, _, _, _ => rfl
  | .flag false, _ + 1, _, _, _, _ => rfl
  | .number _, _ + 1, _, h, hrest, _ => value_number h hrest
  | .text s, _ + 1, rest, _, _, _ => value_text s rest
  | .array [] _, _ + 1, _, h, _, _ => by
    obtain ⟨-, rfl⟩ := h
    rfl
  | .array (j :: js) _, steps + 1, rest, h, _, hsteps => by
    obtain ⟨hitems, rfl⟩ := h
    simp only [chars, List.length_cons, List.length_append, List.length_nil] at hsteps
    rw [chars, List.cons_append, List.append_assoc]
    exact value_list ((opens_itemChars hitems (List.cons_ne_nil _ _)).append _)
      (itemsOf_chars hitems (List.cons_ne_nil _ _) (by omega))
  | .object [] _, _ + 1, _, h, _, _ => by
    obtain ⟨-, rfl⟩ := h
    rfl
  | .object (m :: ms) _, steps + 1, rest, h, _, hsteps => by
    obtain ⟨hmembers, rfl⟩ := h
    simp only [chars, List.length_cons, List.length_append, List.length_nil] at hsteps
    rw [chars, List.cons_append, List.append_assoc]
    exact value_object ((opens_memberChars hmembers (List.cons_ne_nil _ _)).append _)
      (membersOf_chars hmembers (List.cons_ne_nil _ _) (by omega))
  | .broken _, _ + 1, _, h, _, _ => h.elim
termination_by structural j => j

theorem itemsOf_chars : ∀ {js : List Json} {steps : Nat} {rest : List Char}, ItemsSound js → js ≠ [] →
    (itemChars js).length < steps → itemsOf steps (itemChars js ++ ']' :: rest) = (js, .closed, some rest)
  | [], _, _, _, hne, _ => absurd rfl hne
  | [_], _ + 1, rest, h, _, hsteps =>
    itemsOf_last (value_chars h.1 (.cons (.inr (.inl rfl)) rest) (Nat.le_of_lt_succ hsteps))
  | j :: i :: js, steps + 1, rest, h, _, hsteps => by
    rw [itemChars_cons, List.length_append, List.length_cons] at hsteps
    rw [itemChars_cons, List.append_assoc, List.cons_append]
    exact itemsOf_more (value_chars h.1 (.cons (.inl rfl) _) (by omega))
      ((opens_itemChars h.2 (List.cons_ne_nil _ _)).append _) (itemsOf_chars h.2 (List.cons_ne_nil _ _) (by omega))
termination_by structural js => js

theorem membersOf_chars : ∀ {ms : List (Json × Json)} {steps : Nat} {rest : List Char}, MembersSound ms → ms ≠ [] →
    (memberChars ms).length < steps →
    membersOf steps (memberChars ms ++ '\x7d' :: rest) = (ms, .closed, some rest)
  | [], _, _, _, hne, _ => absurd rfl hne
  | [(k, v)], steps + 1, rest, h, _, hsteps => by
    obtain ⟨⟨name, rfl⟩, hv, -⟩ := h
    simp only [memberChars, List.length_append, List.length_cons] at hsteps
    rw [memberChars, List.append_assoc, List.cons_append]
    exact membersOf_last (value_chars hv (.cons (.inr (.inr rfl)) rest) (by omega))
  | (k, v) :: m :: ms, steps + 1, rest, h, _, hsteps => by
    obtain ⟨⟨name, rfl⟩, hv, hms⟩ := h
    simp only [memberChars_cons, List.length_append, List.length_cons] at hsteps
    rw [memberChars_cons, List.append_assoc, List.cons_append, List.append_assoc, List.cons_append]
    exact membersOf_more (value_chars hv (.cons (.inl rfl) _) (by omega))
      ((opens_memberChars hms (List.cons_ne_nil _ _)).append _) (membersOf_chars hms (List.cons_ne_nil _ _) (by omega))
termination_by structural ms => ms

end

/-- Reading undoes printing, and nothing is left over. -/
theorem read_print {j : Json} (h : Sound j) : read (print j) = ⟨j, false⟩ := by
  have hvalue : value (2 * (chars j).length + 2) (chars j ++ []) = (j, some []) := value_chars h .nil (by omega)
  rw [List.append_nil] at hvalue
  simp only [read, print, String.toList_ofList, hvalue]
  rfl

end SceneScript.Json
