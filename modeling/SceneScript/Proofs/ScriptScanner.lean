/-
  SceneScript.Proofs.ScriptScanner — a script as it is cut into tokens.

  `scan` reads code one character after another, as far as brackets, comments and texts
  between single quotes go (ECMAScript 2019). Its state is what it is in the middle of and
  the brackets that are open; what it gives is the texts, decoded. It is stricter than the
  language: a bracket must close the last that is open, a literal ends on the line that it
  begins on and has no escapes but those of `unescape`, and code has no other quotes and no
  slash that does not begin a comment. What it reads, the language reads in the same way.

  A scan of joined texts is the scans one after another (`Runs.append`). `Reads x texts`
  says that `x` is code that closes what it opens, whatever is open around it, and whose
  literals are these. A quoted text is such code, whatever its characters are
  (`reads_text`), and so is a name (`IsName`), also with its first character in upper case.
  Every identifier is a name (`isName_of_spelled`).
-/
import SceneScript.Proofs.StarFree

namespace SceneScript

inductive Bracket where
  | round
  | square
  | curly
  deriving DecidableEq

namespace Bracket

def opened? : Char → Option Bracket
  | '(' => some round
  | '[' => some square
  | '{' => some curly
  | _ => none

def closed? : Char → Option Bracket
  | ')' => some round
  | ']' => some square
  | '}' => some curly
  | _ => none

end Bracket

namespace Scan

/-! ## The scanner -/

/-- What a scan is in the middle of. -/
inductive Mode where
  | code
  /-- After a slash, which must begin a comment. -/
  | slash
  | lineComment
  | blockComment
  /-- After a star, which may end the comment. -/
  | blockStar
  /-- In a literal of these characters so far. -/
  | literal (soFar : List Char)
  /-- After a backslash in a literal. -/
  | escape (soFar : List Char)
  /-- After a backslash in a name, which is spelled with the code of a character there. -/
  | nameEscape
  | nameCode
  | nameBraced
  deriving DecidableEq

/-- The innermost of the open brackets comes first. -/
structure State where
  mode : Mode
  brackets : List Bracket
  deriving DecidableEq

def isLineEnd (c : Char) : Bool := c = '\n' || c = '\r' || c = '\u2028' || c = '\u2029'

def isHexDigit (c : Char) : Bool := c.isDigit || ('a' ≤ c && c ≤ 'f') || ('A' ≤ c && c ≤ 'F')

/-- The character that is meant by a backslash and this one. -/
def unescape (c : Char) : Option Char :=
  if c = 'n' then some '\n'
  else if c = 'r' then some '\r'
  else if c = 't' then some '\t'
  else if c = '\'' || c = '\\' then some c
  else none

/-- A character of code that is no bracket. -/
def codeMode (c : Char) : Option Mode :=
  if c = '\'' then some (.literal [])
  else if c = '/' then some .slash
  else if c = '\\' then some .nameEscape
  else if c = '\"' || c = '\u0060' then none
  else some .code

def stepCode (brackets : List Bracket) (c : Char) : Option State :=
  match Bracket.opened? c with
  | some b => some ⟨.code, b :: brackets⟩
  | none =>
    match Bracket.closed? c with
    | some b =>
      match brackets with
      | [] => none
      | top :: rest => if top = b then some ⟨.code, rest⟩ else none
    | none => (codeMode c).map (⟨·, brackets⟩)

/-- Reads a character; a quote that ends a literal gives its text. -/
def step (s : State) (c : Char) : Option (State × List String) :=
  match s.mode with
  | .code => (stepCode s.brackets c).map (·, [])
  | .slash =>
    if c = '/' then some (⟨.lineComment, s.brackets⟩, [])
    else if c = '*' then some (⟨.blockComment, s.brackets⟩, [])
    else none
  | .lineComment => some (⟨if isLineEnd c then .code else .lineComment, s.brackets⟩, [])
  | .blockComment => some (⟨if c = '*' then .blockStar else .blockComment, s.brackets⟩, [])
  | .blockStar =>
    if c = '/' then some (⟨.code, s.brackets⟩, [])
    else some (⟨if c = '*' then .blockStar else .blockComment, s.brackets⟩, [])
  | .literal soFar =>
    if c = '\'' then some (⟨.code, s.brackets⟩, [String.ofList soFar])
    else if c = '\\' then some (⟨.escape soFar, s.brackets⟩, [])
    else if c = '\n' || c = '\r' then none
    else some (⟨.literal (soFar ++ [c]), s.brackets⟩, [])
  | .escape soFar => (unescape c).map fun d => (⟨.literal (soFar ++ [d]), s.brackets⟩, [])
  | .nameEscape => if c = 'u' then some (⟨.nameCode, s.brackets⟩, []) else none
  | .nameCode =>
    -- of four digits without braces the last three read like any of a name
    if c = '{' then some (⟨.nameBraced, s.brackets⟩, [])
    else if isHexDigit c then some (⟨.code, s.brackets⟩, [])
    else none
  | .nameBraced =>
    if c = '}' then some (⟨.code, s.brackets⟩, [])
    else if isHexDigit c then some (⟨.nameBraced, s.brackets⟩, [])
    else none

/-- Reads characters: the state after them, and the texts of the literals that end in them. -/
def scan (s : State) : List Char → Option (State × List String)
  | [] => some (s, [])
  | c :: cs =>
    match step s c with
    | none => none
    | some (t, texts) => (scan t cs).map fun (u, more) => (u, texts ++ more)

theorem scan_append {s t u : State} {xs ys : List Char} {as bs : List String} (hx : scan s xs = some (t, as))
    (hy : scan t ys = some (u, bs)) : scan s (xs ++ ys) = some (u, as ++ bs) := by
  induction xs generalizing s as with
  | nil =>
    obtain ⟨rfl, rfl⟩ : s = t ∧ [] = as := by simpa [scan] using hx
    exact hy
  | cons c xs ih =>
    rw [scan] at hx
    rw [List.cons_append, scan]
    cases hs : step s c with
    | none =>
      rw [hs] at hx
      cases hx
    | some r =>
      rw [hs] at hx
      obtain ⟨⟨v, more⟩, hrest, heq⟩ := Option.map_eq_some_iff.mp hx
      cases heq
      simp [ih hrest]

/-- Brackets that were open before make no difference. -/
theorem step_outer {m m' : Mode} {bs bs' : List Bracket} {c : Char} {as : List String}
    (h : step ⟨m, bs⟩ c = some (⟨m', bs'⟩, as)) (outer : List Bracket) :
    step ⟨m, bs ++ outer⟩ c = some (⟨m', bs' ++ outer⟩, as) := by
  cases m with
  | code =>
    simp only [step, stepCode] at h ⊢
    cases hopened : Bracket.opened? c with
    | some b =>
      obtain ⟨⟨rfl, rfl⟩, rfl⟩ : (.code = m' ∧ b :: bs = bs') ∧ as = [] := by simpa [hopened] using h
      simp
    | none =>
      cases hclosed : Bracket.closed? c with
      | some b =>
        cases bs with
        | nil => simp [hopened, hclosed] at h
        | cons top rest =>
          by_cases htop : top = b
          · simp_all
          · simp [hopened, hclosed, htop] at h
      | none =>
        cases hmode : codeMode c <;> simp_all
  | escape soFar =>
    simp only [step] at h ⊢
    cases hc : unescape c <;> simp_all
  | slash | lineComment | blockComment | blockStar | literal | nameEscape | nameCode | nameBraced =>
    simp only [step] at h ⊢
    split_ifs at h ⊢ <;> simp_all

theorem scan_outer {s t : State} {cs : List Char} {as : List String} (h : scan s cs = some (t, as))
    (outer : List Bracket) : scan ⟨s.mode, s.brackets ++ outer⟩ cs = some (⟨t.mode, t.brackets ++ outer⟩, as) := by
  induction cs generalizing s as with
  | nil =>
    obtain ⟨rfl, rfl⟩ : s = t ∧ [] = as := by simpa [scan] using h
    rfl
  | cons c cs ih =>
    rw [scan] at h ⊢
    cases hs : step s c with
    | none =>
      rw [hs] at h
      cases h
    | some r =>
      obtain ⟨u, texts⟩ := r
      rw [hs] at h
      obtain ⟨⟨v, more⟩, hrest, heq⟩ := Option.map_eq_some_iff.mp h
      cases heq
      rw [step_outer hs outer]
      simp [ih hrest]

/-- From one state to another, reading these texts. -/
def Runs (s : State) (x : String) (t : State) (texts : List String) : Prop := scan s x.toList = some (t, texts)

namespace Runs

variable {s t u : State} {x y : String} {as bs : List String}

theorem ofList {cs : List Char} (h : scan s cs = some (t, as)) : Runs s (String.ofList cs) t as := by
  rw [Runs, String.toList_ofList, h]

section Lit

variable {m m' : Mode} {b : Bracket} {outer : List Bracket} {cs : List Char}

/-- A literal of the generator that closes what it opens. -/
theorem lit (h : scan ⟨m, []⟩ cs = some (⟨m', []⟩, as)) : Runs ⟨m, outer⟩ (String.ofList cs) ⟨m', outer⟩ as :=
  ofList (scan_outer h outer)

/-- One that leaves a bracket open. -/
theorem opening (h : scan ⟨m, []⟩ cs = some (⟨m', [b]⟩, as)) :
    Runs ⟨m, outer⟩ (String.ofList cs) ⟨m', b :: outer⟩ as :=
  ofList (scan_outer h outer)

/-- One that closes it. -/
theorem closing (h : scan ⟨m, [b]⟩ cs = some (⟨m', []⟩, as)) :
    Runs ⟨m, b :: outer⟩ (String.ofList cs) ⟨m', outer⟩ as :=
  ofList (scan_outer h outer)

end Lit

theorem append (hx : Runs s x t as) (hy : Runs t y u bs) : Runs s (x ++ y) u (as ++ bs) := by
  rw [Runs, String.toList_append]
  exact scan_append hx hy

/-- What has no literals adds none. -/
theorem silent (hx : Runs s x t as) (hy : Runs t y u []) : Runs s (x ++ y) u as := by
  simpa using hx.append hy

end Runs

/-- Code that closes what it opens, with these literals. -/
def Reads (x : String) (texts : List String) : Prop := ∀ outer, Runs ⟨.code, outer⟩ x ⟨.code, outer⟩ texts

namespace Reads

variable {x y : String} {as bs : List String}

theorem append (hx : Reads x as) (hy : Reads y bs) : Reads (x ++ y) (as ++ bs) := fun o => (hx o).append (hy o)

theorem silent (hx : Reads x as) (hy : Reads y []) : Reads (x ++ y) as := fun o => (hx o).silent (hy o)

theorem empty : Reads "" [] := fun _ => rfl

end Reads

/-- Each line is such code, and these are the literals of all of them. -/
inductive ReadsLines : List String → List String → Prop
  | nil : ReadsLines [] []
  | cons {line : String} {rest as bs : List String} :
      Reads line as → ReadsLines rest bs → ReadsLines (line :: rest) (as ++ bs)

namespace ReadsLines

variable {xs ys as bs : List String}

theorem append (hx : ReadsLines xs as) (hy : ReadsLines ys bs) : ReadsLines (xs ++ ys) (as ++ bs) := by
  induction hx with
  | nil => exact hy
  | cons hl _ ih =>
    rw [List.append_assoc]
    exact .cons hl ih

theorem single {line : String} (h : Reads line as) : ReadsLines [line] as := by
  simpa using ReadsLines.cons h .nil

/-- A line without literals adds none. -/
theorem cons_silent {line : String} (hl : Reads line []) (hx : ReadsLines xs as) : ReadsLines (line :: xs) as :=
  .cons hl hx

theorem of_silent (h : ∀ line ∈ xs, Reads line []) : ReadsLines xs [] := by
  induction xs with
  | nil => exact .nil
  | cons line xs ih =>
    obtain ⟨hl, hxs⟩ := List.forall_mem_cons.mp h
    exact cons_silent hl (ih hxs)

end ReadsLines

/-! ## Ordinary characters -/

/-- The characters of code at which a scan does something. -/
def special : List Char := ['(', ')', '[', ']', '{', '}', '\'', '\"', '\u0060', '/', '\\']

theorem step_ordinary {c : Char} (h : c ∉ special) (brackets : List Bracket) :
    step ⟨.code, brackets⟩ c = some (⟨.code, brackets⟩, []) := by
  simp only [special, List.mem_cons, List.not_mem_nil, or_false, not_or] at h
  obtain ⟨h₁, h₂, h₃, h₄, h₅, h₆, h₇, h₈, h₉, h₁₀, h₁₁⟩ := h
  have hopened : Bracket.opened? c = none := by
    unfold Bracket.opened?
    split <;> simp_all
  have hclosed : Bracket.closed? c = none := by
    unfold Bracket.closed?
    split <;> simp_all
  simp [step, stepCode, hopened, hclosed, codeMode, h₇, h₈, h₉, h₁₀, h₁₁]

theorem scan_ordinary_append {xs : List Char} (h : ∀ c ∈ xs, c ∉ special) (brackets : List Bracket) (ys : List Char) :
    scan ⟨.code, brackets⟩ (xs ++ ys) = scan ⟨.code, brackets⟩ ys := by
  induction xs with
  | nil => rfl
  | cons c xs ih =>
    obtain ⟨hc, hxs⟩ := List.forall_mem_cons.mp h
    rw [List.cons_append, scan, step_ordinary hc]
    simp [ih hxs]

/-- Has no special characters. -/
def Ordinary (x : String) : Prop := ∀ c ∈ x.toList, c ∉ special

instance : DecidablePred Ordinary := fun x => List.decidableBAll (· ∉ special) x.toList

theorem reads_ordinary {x : String} (h : Ordinary x) : Reads x [] := fun o => by
  have := scan_ordinary_append h o []
  rwa [List.append_nil] at this

/-- Each of a table of texts. -/
theorem reads_each {α : Type} {f : α → String} {l : List α} (h : ∀ x ∈ l.map f, Ordinary x) :
    ∀ a ∈ l, Reads (f a) [] := fun _ ha => reads_ordinary (h _ (List.mem_map_of_mem ha))

/-! ## Quoted texts -/

theorem scan_escapeChar (c : Char) (soFar : List Char) (brackets : List Bracket) :
    scan ⟨.literal soFar, brackets⟩ (Literal.escapeChar c) = some (⟨.literal (soFar ++ [c]), brackets⟩, []) := by
  unfold Literal.escapeChar
  split
  · rename_i h; subst h; rfl
  split
  · rename_i h; subst h; rfl
  split
  · rename_i h; subst h; rfl
  split
  · rename_i h; subst h; rfl
  split
  · rename_i h; subst h; rfl
  · simp_all [scan, step]

theorem scan_escaped (cs soFar : List Char) (brackets : List Bracket) :
    scan ⟨.literal soFar, brackets⟩ (cs.flatMap Literal.escapeChar)
      = some (⟨.literal (soFar ++ cs), brackets⟩, []) := by
  induction cs generalizing soFar with
  | nil => simp [scan]
  | cons c cs ih =>
    have := scan_append (scan_escapeChar c soFar brackets) (ih (soFar ++ [c]))
    simpa using this

/-- A quoted text is one literal, and it is the text. -/
theorem reads_text (s : String) : Reads (Literal.text s) [s] := fun o => by
  have hquote : scan ⟨.literal ([] ++ s.toList), o⟩ ['\''] = some (⟨.code, o⟩, [s]) := by
    simp [scan, step]
  have hbody := scan_append (scan_escaped s.toList [] o) hquote
  have hopen : scan ⟨.code, o⟩ ['\''] = some (⟨.literal [], o⟩, []) := rfl
  exact Runs.ofList (scan_append hopen hbody)

/-! ## Names -/

/-- A name: read as code it is no bracket and no literal, and it has no star. -/
structure IsName (s : String) : Prop where
  reads : Reads s []
  starFree : Text.StarFree s

/-- Letters, digits, `$` and `_` are ordinary, in every script of the world. -/
theorem isName_of_ordinary {s : String} (h : Ordinary s) (hs : Text.StarFree s) : IsName s where
  reads := reads_ordinary h
  starFree := hs

/-- Made of ordinary characters and of others spelled with their codes, as every identifier is. -/
inductive Spelled : List Char → Prop
  | nil : Spelled []
  | ordinary {c : Char} {cs : List Char} (h : c ∉ '*' :: special) : Spelled cs → Spelled (c :: cs)
  | code {a b c d : Char} {cs : List Char} (h : [a, b, c, d].all isHexDigit = true) :
      Spelled cs → Spelled ('\\' :: 'u' :: ([a, b, c, d] ++ cs))
  | braced {digits cs : List Char} (h : digits.all isHexDigit = true) :
      Spelled cs → Spelled ('\\' :: 'u' :: '{' :: (digits ++ '}' :: cs))

theorem isHexDigit_ordinary {c : Char} (h : isHexDigit c = true) : c ∉ '*' :: special := fun hs => by
  have hall : ('*' :: special).all (fun c => !isHexDigit c) = true := by decide
  simpa [h] using List.all_eq_true.mp hall c hs

theorem scan_nameBraced {digits : List Char} (h : digits.all isHexDigit = true) (cs : List Char)
    (brackets : List Bracket) :
    scan ⟨.nameBraced, brackets⟩ (digits ++ '}' :: cs) = scan ⟨.code, brackets⟩ cs := by
  induction digits with
  | nil => simp [scan, step]
  | cons c digits ih =>
    obtain ⟨hc, hdigits⟩ := Bool.and_eq_true _ _ |>.mp h
    have hclose : c ≠ '}' := fun hc' => absurd hc (by rw [hc']; decide)
    simp [scan, step, hc, hclose, ih hdigits]

namespace Spelled

variable {cs : List Char}

theorem scan (h : Spelled cs) (o : List Bracket) : Scan.scan ⟨.code, o⟩ cs = some (⟨.code, o⟩, []) := by
  induction h with
  | nil => rfl
  | ordinary hc _ ih =>
    rw [Scan.scan, step_ordinary (not_or.mp (List.mem_cons.not.mp hc)).2]
    simp [ih]
  | @code a b c d cs hdigits _ ih =>
    obtain ⟨ha, hrest⟩ := Bool.and_eq_true _ _ |>.mp hdigits
    have hopen : a ≠ '{' := fun hbrace => absurd ha (by rw [hbrace]; decide)
    have hordinary : ∀ x ∈ [b, c, d], x ∉ special := fun x hx hs =>
      isHexDigit_ordinary (List.all_eq_true.mp hrest x hx) (List.mem_cons_of_mem _ hs)
    calc Scan.scan ⟨.code, o⟩ ('\\' :: 'u' :: ([a, b, c, d] ++ cs))
        = Scan.scan ⟨.code, o⟩ ([b, c, d] ++ cs) := by
          simp [Scan.scan, step, stepCode, Bracket.opened?, Bracket.closed?, codeMode, ha, hopen]
      _ = Scan.scan ⟨.code, o⟩ cs := scan_ordinary_append hordinary o cs
      _ = some (⟨.code, o⟩, []) := ih
  | @braced digits cs hdigits _ ih =>
    calc Scan.scan ⟨.code, o⟩ ('\\' :: 'u' :: '{' :: (digits ++ '}' :: cs))
        = Scan.scan ⟨.nameBraced, o⟩ (digits ++ '}' :: cs) := by
          simp [Scan.scan, step, stepCode, Bracket.opened?, Bracket.closed?, codeMode]
      _ = Scan.scan ⟨.code, o⟩ cs := scan_nameBraced hdigits cs o
      _ = some (⟨.code, o⟩, []) := ih

theorem star_not_mem (h : Spelled cs) : '*' ∉ cs := by
  have hdigit : ∀ {digits : List Char}, digits.all isHexDigit = true → '*' ∉ digits := fun hdigits hs =>
    isHexDigit_ordinary (List.all_eq_true.mp hdigits _ hs) List.mem_cons_self
  induction h with
  | nil => exact List.not_mem_nil
  | ordinary hc _ ih =>
    rw [List.mem_cons, not_or]
    exact ⟨fun heq => hc (heq ▸ List.mem_cons_self), ih⟩
  | code hdigits _ ih =>
    intro hs
    have hs := List.mem_of_ne_of_mem (by decide) (List.mem_of_ne_of_mem (by decide) hs)
    exact (List.mem_append.mp hs).elim (hdigit hdigits) ih
  | braced hdigits _ ih =>
    intro hs
    have hs := List.mem_of_ne_of_mem (by decide) (List.mem_of_ne_of_mem (by decide) (List.mem_of_ne_of_mem (by decide) hs))
    exact (List.mem_append.mp hs).elim (hdigit hdigits) fun hs => ih (List.mem_of_ne_of_mem (by decide) hs)

end Spelled

theorem isName_of_spelled {s : String} (h : Spelled s.toList) : IsName s where
  reads o := h.scan o
  starFree := h.star_not_mem

theorem ofNat_ne {n : Nat} {c : Char} (hc : c.toNat ≠ 0) (h : n ≠ c.toNat) : Char.ofNat n ≠ c := by
  rintro rfl
  by_cases hv : n.isValidChar
  · rw [Char.ofNat, dif_pos hv] at h
    exact h rfl
  · -- what is no character is written as the character zero
    rw [Char.ofNat, dif_neg hv] at hc
    exact hc rfl

/-- Only letters below the last bracket are capitals of other characters. -/
def Capital (n : Nat) : Prop := ('A'.toNat ≤ n ∧ n ≤ 'Z'.toNat) ∨ '}'.toNat < n

instance : DecidablePred Capital := fun n =>
  inferInstanceAs (Decidable (('A'.toNat ≤ n ∧ n ≤ 'Z'.toNat) ∨ '}'.toNat < n))

theorem Capital.ordinary {n : Nat} (h : Capital n) : Char.ofNat n ∉ special := by
  intro hs
  have hspecial : special.all (fun c => c.toNat ≠ 0 ∧ ¬ Capital c.toNat) = true := by decide
  obtain ⟨hzero, hnot⟩ : (Char.ofNat n).toNat ≠ 0 ∧ ¬ Capital (Char.ofNat n).toNat :=
    of_decide_eq_true (List.all_eq_true.mp hspecial _ hs)
  exact ofNat_ne hzero (fun hn => hnot (hn ▸ h)) rfl

theorem capital_shifted {r : Text.CaseRun} (h : r ∈ Text.caseRuns) {n : Nat} (hn : r.holds n = true) :
    Capital ((n : Int) + r.shift).toNat := by
  have hruns : ∀ r ∈ Text.caseRuns,
      (('A'.toNat : Int) ≤ r.first + r.shift ∧ (r.last : Int) + r.shift ≤ 'Z'.toNat) ∨ ('}'.toNat : Int) < r.first + r.shift := by
    decide +kernel
  simp only [Text.CaseRun.holds, Bool.and_eq_true, decide_eq_true_eq] at hn
  rcases hruns r h with ⟨hlow, hhigh⟩ | hlow
  · exact .inl ⟨by omega, by omega⟩
  · exact .inr (by omega)

theorem capital_several {entry : Nat × List Nat} (h : entry ∈ Text.several) : ∀ n ∈ entry.2, Capital n := by
  have hentries : ∀ entry ∈ Text.several, ∀ n ∈ entry.2, Capital n := by decide +kernel
  exact hentries entry h

theorem upperCase_special {c : Char} (h : c ∈ special) : Text.upperCase c = [c] := by
  have hall : special.all (fun c => Text.upperCase c = [c]) = true := by decide +kernel
  exact of_decide_eq_true (List.all_eq_true.mp hall c h)

theorem upperCase_ordinary {c : Char} (h : c ∉ special) : ∀ d ∈ Text.upperCase c, d ∉ special := by
  unfold Text.upperCase
  split
  · rename_i capitals hf
    rintro d hd
    obtain ⟨n, hn, rfl⟩ := List.mem_map.mp hd
    exact (capital_several (List.mem_of_find?_eq_some hf) n hn).ordinary
  · split
    · rename_i r hf
      have hr : r.holds c.toNat = true := by simpa using List.find?_some hf
      exact List.forall_mem_singleton.mpr (capital_shifted (List.mem_of_find?_eq_some hf) hr).ordinary
    · exact List.forall_mem_singleton.mpr h

/-- A scan does not see that a character is put in upper case. -/
theorem scan_upperCase (c : Char) (rest : List Char) (brackets : List Bracket) :
    scan ⟨.code, brackets⟩ (Text.upperCase c ++ rest) = scan ⟨.code, brackets⟩ (c :: rest) := by
  by_cases h : c ∈ special
  · rw [upperCase_special h]
    rfl
  · have hc : scan ⟨.code, brackets⟩ ([c] ++ rest) = scan ⟨.code, brackets⟩ rest :=
      scan_ordinary_append (List.forall_mem_singleton.mpr h) brackets rest
    exact (scan_ordinary_append (upperCase_ordinary h) brackets rest).trans hc.symm

theorem reads_fieldName {name : String} (h : Reads name []) : Reads (Naming.fieldName name) [] := fun o => by
  have hname := h o
  unfold Naming.fieldName
  rw [Runs] at hname
  split
  · rfl
  · rename_i c rest hchars
    rw [hchars] at hname
    apply Runs.ofList
    have hletter : ∀ d ∈ ['f'], d ∉ special := List.forall_mem_singleton.mpr (by decide)
    calc scan ⟨.code, o⟩ ('f' :: (Text.upperCase c ++ rest))
        = scan ⟨.code, o⟩ (Text.upperCase c ++ rest) := scan_ordinary_append hletter o _
      _ = scan ⟨.code, o⟩ (c :: rest) := scan_upperCase c rest o
      _ = some (⟨.code, o⟩, []) := hname

/-! ## Comments -/

/-- Has no end of a line. -/
def OneLine (s : String) : Prop := ∀ c ∈ s.toList, isLineEnd c = false

instance : DecidablePred OneLine := fun s => List.decidableBAll (isLineEnd · = false) s.toList

/-- Only the end of a line ends a line comment. -/
theorem runs_lineComment {s : String} (h : OneLine s) (o : List Bracket) :
    Runs ⟨.lineComment, o⟩ s ⟨.lineComment, o⟩ [] := by
  have hbody : ∀ cs : List Char, (∀ c ∈ cs, isLineEnd c = false) →
      scan ⟨.lineComment, o⟩ cs = some (⟨.lineComment, o⟩, []) := by
    intro cs hcs
    induction cs with
    | nil => rfl
    | cons c cs ih =>
      obtain ⟨hc, hcs⟩ := List.forall_mem_cons.mp hcs
      simp [scan, step, hc, ih hcs]
  exact hbody s.toList h

/-- Only a star can end a block comment. -/
theorem runs_blockComment {s : String} (h : Text.StarFree s) (o : List Bracket) :
    Runs ⟨.blockComment, o⟩ s ⟨.blockComment, o⟩ [] := by
  have hbody : ∀ cs : List Char, '*' ∉ cs → scan ⟨.blockComment, o⟩ cs = some (⟨.blockComment, o⟩, []) := by
    intro cs hcs
    induction cs with
    | nil => rfl
    | cons c cs ih =>
      obtain ⟨hc, hcs⟩ := not_or.mp (List.mem_cons.not.mp hcs)
      simp [scan, step, Ne.symm hc, ih hcs]
  exact hbody s.toList h

end Scan

end SceneScript
