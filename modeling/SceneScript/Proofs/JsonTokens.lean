/-
  SceneScript.Proofs.JsonTokens — where a scalar of a text begins and ends.

  The reader of a scalar takes some characters and leaves the rest alone: it would take the
  same ones, and find the same in them, whatever came next (`Takes`). A quoted text ends at
  its quote; a number goes on as far as it can, so what comes next must be no character of a
  number (`Apart`). The characters of a scalar, with what they stand for, are its `Token`.
-/
import Mathlib.Data.List.TakeWhile
import SceneScript.Proofs.JsonText

namespace SceneScript.Json

/-- No number goes on with this. -/
def Apart (rest : List Char) : Prop :=
  ∀ c cs, rest = c :: cs → c.isDigit = false ∧ c ≠ '.' ∧ c ≠ 'e' ∧ c ≠ 'E'

/-- A reader takes the characters before the rest, and before any other rest that fits. -/
def Takes (read : List Char → Reading) (fits : List Char → Prop) (cs rest : List Char) (j : Json) : Prop :=
  ∃ body, cs = body ++ rest ∧ ∀ rest', fits rest' → read (body ++ rest') = (j, some rest')

variable {cs rest : List Char} {j : Json} {negative : Bool}

theorem Apart.nil : Apart [] := nofun

theorem Apart.cons {c : Char} (h : c.isDigit = false ∧ c ≠ '.' ∧ c ≠ 'e' ∧ c ≠ 'E') (rest : List Char) : Apart (c :: rest) := by
  rintro d ds hds
  rwa [← (List.cons.inj hds).1]

theorem Apart.noDigitFirst (h : Apart rest) : NoDigitFirst rest := fun c cs hcs => (h c cs hcs).1

/-- What comes first stays first. -/
theorem NoDigitFirst.of_append {body : List Char} (h : NoDigitFirst (body ++ rest)) {rest' : List Char} (hrest : Apart rest') :
    NoDigitFirst (body ++ rest') := by
  cases body with
  | nil => exact hrest.noDigitFirst
  | cons c body => exact .cons (h c _ rfl) _

/-! ## Numbers -/

theorem noDigitFirst_dropWhile (cs : List Char) : NoDigitFirst (cs.dropWhile Char.isDigit) := by
  intro c rest h
  have hhead := List.head?_dropWhile_not Char.isDigit cs
  rw [h] at hhead
  simpa using hhead

theorem mem_takeWhile_digits {c : Char} (h : c ∈ cs.takeWhile Char.isDigit) : c.isDigit = true :=
  List.mem_takeWhile_imp h

theorem realNumber_rest (negative : Bool) (c : Decimal) : ∃ j, ∀ rest, realNumber negative c rest = (j, some rest) := by
  cases h : Double.ofDecimal? negative c with
  | some d => exact ⟨_, fun rest => by rw [realNumber, h]⟩
  | none => exact ⟨_, fun rest => by rw [realNumber, h]⟩

theorem wholeNumber_rest (negative : Bool) (n : Nat) : ∃ j, ∀ rest, wholeNumber negative n rest = (j, some rest) := by
  cases negative with
  | true =>
    by_cases hn : 0 < n ∧ n ≤ 0x8000000000000000
    · exact ⟨_, fun rest => by rw [wholeNumber, if_pos rfl, if_pos hn]⟩
    · obtain ⟨j, hj⟩ := realNumber_rest true ⟨n, 0⟩
      exact ⟨j, fun rest => by rw [wholeNumber, if_pos rfl, if_neg hn, hj]⟩
  | false =>
    by_cases hn : n < 0x10000000000000000
    · exact ⟨_, fun rest => by rw [wholeNumber, if_neg Bool.false_ne_true, if_pos hn]⟩
    · obtain ⟨j, hj⟩ := realNumber_rest false ⟨n, 0⟩
      exact ⟨j, fun rest => by rw [wholeNumber, if_neg Bool.false_ne_true, if_neg hn, hj]⟩

/-- A sign, which may be missing, is split off before a digit. -/
theorem exponentSign_append {sign : List Char} (hsign : sign = [] ∨ sign = ['-'] ∨ sign = ['+']) {d : Char}
    (hd : d.isDigit = true) (ds : List Char) : exponentSign (sign ++ d :: ds) = (decide (sign = ['-']), d :: ds) := by
  rcases hsign with rfl | rfl | rfl
  · have hminus : d ≠ '-' := by rintro rfl; cases hd
    have hplus : d ≠ '+' := by rintro rfl; cases hd
    rw [List.nil_append, exponentSign]
    · rfl
    · rintro cs h
      exact hminus (List.cons.inj h).1
    · rintro cs h
      exact hplus (List.cons.inj h).1
  · rfl
  · rfl

theorem exponentSign_split (cs : List Char) :
    ∃ sign cs', cs = sign ++ cs' ∧ (sign = [] ∨ sign = ['-'] ∨ sign = ['+']) ∧
      exponentSign cs = (decide (sign = ['-']), cs') := by
  unfold exponentSign
  split
  · exact ⟨['-'], _, rfl, .inr (.inl rfl), rfl⟩
  · exact ⟨['+'], _, rfl, .inr (.inr rfl), rfl⟩
  · exact ⟨[], _, rfl, .inl rfl, rfl⟩

/-- An exponent is a sign and digits. -/
theorem exponentPart_takes {digits : List Char} {places : Nat}
    (h : exponentPart negative digits places cs = (j, some rest)) :
    Takes (exponentPart negative digits places) Apart cs rest j := by
  obtain ⟨sign, cs, rfl, hsign, hsplit⟩ := exponentSign_split cs
  simp only [exponentPart, hsplit] at h
  cases hds : cs.takeWhile Char.isDigit with
  | nil =>
    rw [hds] at h
    cases h
  | cons d ds =>
    rw [hds] at h
    obtain ⟨k, hk⟩ := realNumber_rest negative ⟨Decimal.ofDigitChars digits,
      (if decide (sign = ['-']) then -(Decimal.ofDigitChars (d :: ds) : Int) else (Decimal.ofDigitChars (d :: ds) : Int))
        - (places : Int)⟩
    obtain ⟨rfl, hrest⟩ := Prod.mk.inj ((hk _).symm.trans h)
    obtain rfl := Option.some.inj hrest
    have hdigits : ∀ c ∈ d :: ds, c.isDigit = true := fun c hc => mem_takeWhile_digits (hds ▸ hc)
    refine ⟨sign ++ d :: ds, ?_, fun rest' hrest' => ?_⟩
    · rw [List.append_assoc, ← hds, List.takeWhile_append_dropWhile]
    · have hsplit' := exponentSign_append hsign (hdigits d List.mem_cons_self) (ds ++ rest')
      rw [List.append_assoc, List.cons_append]
      simp only [exponentPart, hsplit']
      rw [← List.cons_append, takeWhile_digits hdigits hrest'.noDigitFirst, dropWhile_digits hdigits hrest'.noDigitFirst]
      exact hk rest'

/-- Digits may be followed by an exponent. -/
theorem afterDigits_takes {digits : List Char} {places : Nat} {other : List Char → Reading} {k : Json}
    (hother : ∀ rest, other rest = (k, some rest))
    (h : (afterDigits negative digits places cs).getD (other cs) = (j, some rest)) :
    Takes (fun cs => (afterDigits negative digits places cs).getD (other cs)) Apart cs rest j := by
  unfold afterDigits at h
  split at h
  · obtain ⟨body, rfl, hbody⟩ := exponentPart_takes h
    exact ⟨'e' :: body, rfl, hbody⟩
  · obtain ⟨body, rfl, hbody⟩ := exponentPart_takes h
    exact ⟨'E' :: body, rfl, hbody⟩
  · obtain ⟨rfl, hrest⟩ := Prod.mk.inj ((hother _).symm.trans h)
    obtain rfl := Option.some.inj hrest
    refine ⟨[], rfl, fun rest' hrest' => ?_⟩
    have hnone : afterDigits negative digits places rest' = none := by
      unfold afterDigits
      split
      · exact absurd rfl (hrest' _ _ rfl).2.2.1
      · exact absurd rfl (hrest' _ _ rfl).2.2.2
      · rfl
    simp only [List.nil_append, hnone, Option.getD_none, hother]

/-- An integer part may be followed by a fraction. -/
theorem afterInteger_takes {whole : List Char} (h : afterInteger negative whole cs = (j, some rest)) :
    Takes (afterInteger negative whole) Apart cs rest j := by
  unfold afterInteger at h
  split at h
  · rename_i cs
    cases hds : cs.takeWhile Char.isDigit with
    | nil =>
      rw [hds] at h
      cases h
    | cons d ds =>
      rw [hds] at h
      have hdigits : ∀ c ∈ d :: ds, c.isDigit = true := fun c hc => mem_takeWhile_digits (hds ▸ hc)
      obtain ⟨k, hk⟩ := realNumber_rest negative
        ⟨Decimal.ofDigitChars (whole ++ d :: ds), -((d :: ds).length : Int)⟩
      obtain ⟨body, hbody, htakes⟩ := afterDigits_takes hk h
      refine ⟨'.' :: (d :: ds ++ body), ?_, fun rest' hrest' => ?_⟩
      · rw [List.cons_append, List.append_assoc, ← hbody, ← hds, List.takeWhile_append_dropWhile]
      · have hfirst : NoDigitFirst (body ++ rest') := (hbody ▸ noDigitFirst_dropWhile cs).of_append hrest'
        rw [List.cons_append, List.append_assoc, afterInteger_point hdigits (List.cons_ne_nil _ _) hfirst]
        exact htakes rest' hrest'
  · rename_i hpoint
    obtain ⟨k, hk⟩ := wholeNumber_rest negative (Decimal.ofDigitChars whole)
    obtain ⟨body, rfl, htakes⟩ := afterDigits_takes hk h
    refine ⟨body, rfl, fun rest' hrest' => ?_⟩
    rw [afterInteger]
    · exact htakes rest' hrest'
    · intro cs' h
      cases body with
      | nil => exact absurd rfl (hrest' _ _ h).2.1
      | cons c body => exact hpoint _ (by rw [(List.cons.inj h).1]; rfl)

theorem numeral_takes (h : numeral negative cs = (j, some rest)) : Takes (numeral negative) Apart cs rest j := by
  have hwhole : Whole (cs.takeWhile Char.isDigit) ∧
      afterInteger negative (cs.takeWhile Char.isDigit) (cs.dropWhile Char.isDigit) = (j, some rest) := by
    unfold numeral at h
    simp only at h
    split at h
    · cases h
    · cases h
    · rename_i digits hnil hzero
      refine ⟨⟨fun c hc => mem_takeWhile_digits hc, ?_⟩, h⟩
      cases hds : cs.takeWhile Char.isDigit with
      | nil => exact absurd hds hnil
      | cons d ds =>
        refine ⟨d, ds, rfl, ?_⟩
        rintro rfl
        cases ds with
        | nil => rfl
        | cons e ds => exact absurd hds (hzero e ds)
  obtain ⟨body, hbody, htakes⟩ := afterInteger_takes hwhole.2
  refine ⟨cs.takeWhile Char.isDigit ++ body, ?_, fun rest' hrest' => ?_⟩
  · rw [List.append_assoc, ← hbody, List.takeWhile_append_dropWhile]
  · have hfirst : NoDigitFirst (body ++ rest') := (hbody ▸ noDigitFirst_dropWhile cs).of_append hrest'
    rw [List.append_assoc, numeral_whole hwhole.1 hfirst, htakes rest' hrest']

/-! ## Quoted texts -/

/-- An escape of one letter takes two characters. -/
theorem afterText_letter {e : Char} (he : e ≠ 'u') (hletter : (escaped? e).isSome = true) (cs : List Char) :
    afterText ('\\' :: e :: cs) = afterText cs := by
  rw [afterText.eq_def]
  simp only [Char.reduceEq, if_false, if_true]
  split
  · cases ‹e :: cs = []›
  · exact absurd (List.cons.inj ‹_›).1 he
  · exact absurd (List.cons.inj ‹_›).1 he
  · rename_i heq
    obtain ⟨rfl, rfl⟩ := List.cons.inj heq
    rw [if_pos hletter]

theorem textContent_letter {e : Char} (he : e ≠ 'u') (lead? : Option Nat) (cs : List Char) :
    textContent lead? ('\\' :: e :: cs)
      = match lead?, escaped? e with
        | none, some plain => (textContent none cs).map (plain :: ·)
        | _, _ => .error .malformed := by
  rw [textContent.eq_def]
  simp only [if_true]
  split
  · cases ‹e :: cs = []›
  · exact absurd (List.cons.inj ‹_›).1 he
  · exact absurd (List.cons.inj ‹_›).1 he
  · rename_i heq
    obtain ⟨rfl, rfl⟩ := List.cons.inj heq
    rfl

/-- A quoted text ends at its quote, whatever is wrong in it. -/
theorem afterText_takes (h : afterText cs = .ok rest) :
    ∃ body, cs = body ++ rest ∧ (∀ rest', afterText (body ++ rest') = .ok rest') ∧
      ∀ lead? rest' rest'', textContent lead? (body ++ rest') = textContent lead? (body ++ rest'') := by
  induction cs using afterText.induct generalizing rest with
  | case1 => cases h
  | case2 cs =>
    rw [afterText_quote] at h
    obtain rfl := Except.ok.inj h
    refine ⟨['"'], rfl, fun rest' => afterText_quote rest', fun lead? rest' rest'' => ?_⟩
    cases lead? with
    | none => exact (textContent_quote rest').trans (textContent_quote rest'').symm
    | some lead => rw [List.singleton_append, List.singleton_append, textContent.eq_def, textContent.eq_def]; rfl
  | case3 => cases h
  | case4 h1 h2 h3 h4 cs hcode hquote =>
    rw [afterText.eq_def] at h
    simp only [hquote, if_false, if_true, hcode] at h
    cases h
  | case5 h1 h2 h3 h4 cs n hcode hquote ih =>
    have hstep : ∀ cs, afterText ('\\' :: 'u' :: h1 :: h2 :: h3 :: h4 :: cs) = afterText cs := by
      intro cs
      rw [afterText.eq_def]
      simp only [hquote, if_false, if_true, hcode]
    rw [hstep] at h
    obtain ⟨body, rfl, hafter, hcontent⟩ := ih h
    refine ⟨'\\' :: 'u' :: h1 :: h2 :: h3 :: h4 :: body, rfl, fun rest' => (hstep _).trans (hafter rest'), ?_⟩
    intro lead? rest' rest''
    rw [textContent.eq_def, textContent.eq_def lead? ('\\' :: 'u' :: h1 :: h2 :: h3 :: h4 :: body ++ rest'')]
    simp only [List.cons_append, if_true, hcode, hcontent none rest' rest'', hcontent (some n) rest' rest'']
  | case6 cs hshort hquote =>
    rw [afterText.eq_def] at h
    simp only [hquote, if_false, if_true] at h
    cases h
  | case7 e cs hlong hne hletter hquote ih =>
    have hstep := afterText_letter hne hletter
    rw [hstep] at h
    obtain ⟨body, rfl, hafter, hcontent⟩ := ih h
    refine ⟨'\\' :: e :: body, rfl, fun rest' => (hstep _).trans (hafter rest'), fun lead? rest' rest'' => ?_⟩
    simp only [List.cons_append, textContent_letter hne, hcontent none rest' rest'']
  | case8 e cs hlong hne hletter hquote =>
    rw [afterText.eq_def] at h
    simp only [hquote, if_false, if_true] at h
    split at h
    · exact absurd ‹_› hletter
    · cases h
  | case9 c cs hquote hslash hcontrol =>
    rw [afterText.eq_def] at h
    simp only [hquote, hslash, hcontrol, if_false, if_true] at h
    cases h
  | case10 c cs hquote hslash hcontrol ih =>
    have hstep : ∀ cs, afterText (c :: cs) = afterText cs := by
      intro cs
      rw [afterText.eq_def]
      simp only [hquote, hslash, hcontrol, if_false]
    rw [hstep] at h
    obtain ⟨body, rfl, hafter, hcontent⟩ := ih h
    refine ⟨c :: body, rfl, fun rest' => (hstep _).trans (hafter rest'), fun lead? rest' rest'' => ?_⟩
    rw [textContent.eq_def, textContent.eq_def lead? (c :: body ++ rest'')]
    simp only [List.cons_append, hquote, hslash, hcontrol, if_false, hcontent none rest' rest'']

theorem quoted_takes (h : quoted cs = (j, some rest)) : Takes quoted (fun _ => True) cs rest j := by
  have hafter : afterText cs = .ok rest := by
    cases hafter : afterText cs with
    | ok rest' =>
      simp only [quoted, hafter] at h
      cases htext : textContent none cs <;> rw [htext] at h <;> rw [Option.some.inj (Prod.mk.inj h).2]
    | error fault =>
      simp only [quoted, hafter] at h
      cases htext : textContent none cs <;> rw [htext] at h <;> cases h
  obtain ⟨body, rfl, hends, hcontent⟩ := afterText_takes hafter
  refine ⟨body, rfl, fun rest' _ => ?_⟩
  simp only [quoted, hafter, hends, hcontent none rest' rest] at h ⊢
  cases htext : textContent none (body ++ rest) <;> rw [htext] at h <;> rw [← (Prod.mk.inj h).1]

/-! ## Blanks -/

/-- Nothing but blanks. -/
def Blank (b : List Char) : Prop := ∀ c ∈ b, isSpace c = true

theorem Blank.nil : Blank [] := nofun

theorem skipSpace_append {b : List Char} (hb : Blank b) (cs : List Char) : skipSpace (b ++ cs) = skipSpace cs :=
  List.dropWhile_append_of_pos hb

theorem skipSpace_split (cs : List Char) : ∃ b, Blank b ∧ cs = b ++ skipSpace cs :=
  ⟨cs.takeWhile isSpace, fun _ hc => List.mem_takeWhile_imp hc, List.takeWhile_append_dropWhile.symm⟩

/-- What is left after blanks is empty or starts with something else. -/
theorem isSpace_of_skipSpace {c : Char} (h : skipSpace cs = c :: rest) : isSpace c = false := by
  have hhead := List.head?_dropWhile_not isSpace cs
  rw [show cs.dropWhile isSpace = c :: rest from h] at hhead
  simpa using hhead

theorem skipSpace_skipSpace (cs : List Char) : skipSpace (skipSpace cs) = skipSpace cs := by
  obtain ⟨b, hb, hcs⟩ := skipSpace_split cs
  rw [← skipSpace_append hb, ← hcs]

theorem apart_of_isSpace {c : Char} (h : isSpace c = true) (rest : List Char) : Apart (c :: rest) := by
  have hc : c = ' ' ∨ c = '\n' ∨ c = '\t' ∨ c = '\r' := by simpa [isSpace, or_assoc] using h
  rcases hc with rfl | rfl | rfl | rfl <;> exact .cons (by decide) rest

theorem Apart.after_blank {b : List Char} (hb : Blank b) (h : Apart rest) : Apart (b ++ rest) := by
  cases b with
  | nil => exact h
  | cons c b => exact apart_of_isSpace (hb c List.mem_cons_self) _

/-! ## Tokens -/

/-- The characters of a scalar, and what they stand for. A scalar may be one that can only be passed over. -/
inductive Token : List Char → Json → Prop
  | null : Token ['n', 'u', 'l', 'l'] .null
  | yes : Token ['t', 'r', 'u', 'e'] (.flag true)
  | no : Token ['f', 'a', 'l', 's', 'e'] (.flag false)
  | text {cs : List Char} {j : Json} : quoted cs = (j, some []) → Token ('"' :: cs) j
  | negative {cs : List Char} {j : Json} : numeral true cs = (j, some []) → Token ('-' :: cs) j
  | number {d : Char} {cs : List Char} {j : Json} : d.isDigit = true → numeral false (d :: cs) = (j, some []) →
      Token (d :: cs) j

variable {steps : Nat} {token : List Char}

/-- A reader that takes all of a token takes it before anything that fits. -/
theorem read_append {read : List Char → Reading} {fits : List Char → Prop} (h : Takes read fits token [] j)
    (hrest : fits rest) : read (token ++ rest) = (j, some rest) := by
  obtain ⟨body, rfl, hread⟩ := h
  rw [List.append_nil]
  exact hread rest hrest

theorem quoted_append (h : quoted token = (j, some [])) (rest : List Char) : quoted (token ++ rest) = (j, some rest) :=
  read_append (quoted_takes h) trivial

theorem Token.opens (h : Token token j) : Opens token := by
  cases h with
  | null => exact ⟨_, _, rfl, rfl, by decide, by decide⟩
  | yes => exact ⟨_, _, rfl, rfl, by decide, by decide⟩
  | no => exact ⟨_, _, rfl, rfl, by decide, by decide⟩
  | text => exact ⟨_, _, rfl, rfl, by decide, by decide⟩
  | negative => exact ⟨_, _, rfl, rfl, by decide, by decide⟩
  | number hd =>
    obtain ⟨hspace, -, -, -, -, hsquare, hcurly⟩ := ne_of_isDigit hd
    exact ⟨_, _, rfl, hspace, hsquare, hcurly⟩

/-- A token is read as what it stands for. -/
theorem Token.value (h : Token token j) (hrest : Apart rest) : Json.value (steps + 1) (token ++ rest) = (j, some rest) := by
  cases h with
  | null => rfl
  | yes => rfl
  | no => rfl
  | text h =>
    rw [List.cons_append, Json.value, skipSpace_cons rfl]
    exact quoted_append h rest
  | negative h =>
    rw [List.cons_append, Json.value, skipSpace_cons rfl]
    exact read_append (numeral_takes h) hrest
  | number hd h =>
    obtain ⟨hspace, hquote, hsquare, hcurly, hminus, -, -⟩ := ne_of_isDigit hd
    rw [List.cons_append, Json.value, skipSpace_cons hspace]
    simp only [hquote, hsquare, hcurly, hminus, hd, if_false, if_true]
    exact read_append (numeral_takes h) hrest

theorem word_takes {opening : Opening} {content : Json} {ws : List Char} (h : word opening content ws cs = (j, some rest)) :
    cs = ws ++ rest ∧ j = content := by
  induction ws generalizing cs with
  | nil =>
    obtain ⟨hj, hrest⟩ := Prod.mk.inj h
    exact ⟨Option.some.inj hrest, hj.symm⟩
  | cons w ws ih =>
    cases cs with
    | nil => cases h
    | cons c cs =>
      rw [word] at h
      split at h
      · rename_i hw
        obtain ⟨rfl, hj⟩ := ih h
        exact ⟨by rw [hw]; rfl, hj⟩
      · cases h

/-- What is read and opens no container has a token. -/
theorem exists_token {c : Char} (hspace : isSpace c = false) (hsquare : c ≠ '[') (hcurly : c ≠ '\x7b')
    (h : Json.value (steps + 1) (c :: cs) = (j, some rest)) : ∃ token, c :: cs = token ++ rest ∧ Token token j := by
  rw [Json.value, skipSpace_cons hspace] at h
  simp only [hsquare, hcurly, if_false] at h
  split at h
  · rename_i hc
    obtain ⟨body, rfl, hread⟩ := quoted_takes h
    exact ⟨c :: body, rfl, hc ▸ .text (by simpa using hread [] trivial)⟩
  split at h
  · rename_i hc
    obtain ⟨body, rfl, hread⟩ := numeral_takes h
    exact ⟨c :: body, rfl, hc ▸ .negative (by simpa using hread [] .nil)⟩
  split at h
  · rename_i hd
    obtain ⟨body, hbody, hread⟩ := numeral_takes h
    have hnumber : numeral false body = (j, some []) := by simpa using hread [] .nil
    obtain ⟨d, ds, rfl, hdigit⟩ := digit_first hnumber
    exact ⟨d :: ds, hbody, .number hdigit hnumber⟩
  split at h
  · rename_i hc
    obtain ⟨rfl, rfl⟩ := word_takes h
    exact ⟨_, by rw [hc]; rfl, .null⟩
  split at h
  · rename_i hc
    obtain ⟨rfl, rfl⟩ := word_takes h
    exact ⟨_, by rw [hc]; rfl, .yes⟩
  split at h
  · rename_i hc
    obtain ⟨rfl, rfl⟩ := word_takes h
    exact ⟨_, by rw [hc]; rfl, .no⟩
  · cases h

/-! ## Scalars that break off -/

theorem badNumber_fault (rest : List Char) : (badNumber rest).1.skipFault ≠ none := nofun

theorem exponentPart_none {digits : List Char} {places : Nat} (h : exponentPart negative digits places cs = (j, none)) :
    j.skipFault ≠ none := by
  obtain ⟨sign, cs, rfl, hsign, hsplit⟩ := exponentSign_split cs
  simp only [exponentPart, hsplit] at h
  split at h
  · rw [← (Prod.mk.inj h).1]
    exact badNumber_fault _
  · rw [(realNumber_rest _ _).choose_spec] at h
    cases h

theorem afterDigits_none {digits : List Char} {places : Nat} {other : List Char → Reading} {k : Json}
    (hother : ∀ rest, other rest = (k, some rest))
    (h : (afterDigits negative digits places cs).getD (other cs) = (j, none)) : j.skipFault ≠ none := by
  unfold afterDigits at h
  split at h
  · exact exponentPart_none h
  · exact exponentPart_none h
  · rw [Option.getD_none, hother] at h
    cases h

theorem numeral_none (h : numeral negative cs = (j, none)) : j.skipFault ≠ none := by
  have hinteger : ∀ {whole cs}, afterInteger negative whole cs = (j, none) → j.skipFault ≠ none := by
    intro whole cs h
    unfold afterInteger at h
    split at h
    · simp only at h
      split at h
      · rw [← (Prod.mk.inj h).1]
        exact badNumber_fault _
      · exact afterDigits_none (realNumber_rest _ _).choose_spec h
    · exact afterDigits_none (wholeNumber_rest _ _).choose_spec h
  unfold numeral at h
  simp only at h
  split at h
  · rw [← (Prod.mk.inj h).1]
    exact badNumber_fault _
  · rw [← (Prod.mk.inj h).1]
    nofun
  · exact hinteger h

theorem quoted_none (h : quoted cs = (j, none)) : j.skipFault ≠ none := by
  unfold quoted at h
  split at h
  · cases h
  · cases h
  · rw [← (Prod.mk.inj h).1]
    nofun
  · rw [← (Prod.mk.inj h).1]
    nofun

theorem word_none {opening : Opening} {content : Json} {ws : List Char} (h : word opening content ws cs = (j, none)) :
    j.skipFault ≠ none := by
  induction ws generalizing cs with
  | nil => cases h
  | cons w ws ih =>
    cases cs with
    | nil =>
      rw [← (Prod.mk.inj h).1]
      nofun
    | cons c cs =>
      rw [word] at h
      split at h
      · exact ih h
      · rw [← (Prod.mk.inj h).1]
        nofun

end SceneScript.Json
