/-
  SceneScript.Proofs.JsonLayout — how a value is laid out in a text.

  A `Layout` is a value with all that its text shows: the characters of each scalar, the
  order of the members, the blanks around every part. Its text and its value are functions
  of it. A legal layout is read from its text, whatever fits after it (`Layout.read_text`).
  Conversely the reader gets through no other texts (`laidOut`), and where it does not get
  through skipping finds a fault (`breaks`): a text that holds one value and that one whole
  has a layout (`exists_layout`).
-/
import SceneScript.Proofs.WholeValues
import SceneScript.Proofs.JsonTokens

namespace SceneScript.Json

/-- How a key is written. -/
structure KeyText where
  before : List Char
  token : List Char
  name : Json
  after : List Char

def KeyText.text (key : KeyText) : List Char := key.before ++ (key.token ++ key.after)

/-- A quoted text between blanks. -/
def KeyText.Legal (key : KeyText) : Prop :=
  Blank key.before ∧ (∃ cs, key.token = '"' :: cs ∧ quoted cs = (key.name, some [])) ∧ Blank key.after

/-- A value as it is written, from its first character to its last. Elements and the values of members stand between
    blanks; `inner` are the blanks after an opening bracket. -/
inductive Layout where
  | scalar (token : List Char) (content : Json)
  | array (inner : List Char) (items : List (List Char × Layout × List Char))
  | object (inner : List Char) (members : List (KeyText × List Char × Layout × List Char))

namespace Layout

/-- An element between its blanks. -/
abbrev Item := List Char × Layout × List Char

/-- A member: its key, and its value between blanks. -/
abbrev Member := KeyText × List Char × Layout × List Char

mutual

def text : Layout → List Char
  | .scalar token _ => token
  | .array inner items => '[' :: (inner ++ ([','].intercalate (itemTexts items) ++ [']']))
  | .object inner members => '\x7b' :: (inner ++ ([','].intercalate (memberTexts members) ++ ['\x7d']))
termination_by structural l => l

def itemTexts : List (List Char × Layout × List Char) → List (List Char)
  | [] => []
  | (before, l, after) :: rest => (before ++ (text l ++ after)) :: itemTexts rest
termination_by structural items => items

def memberTexts : List (KeyText × List Char × Layout × List Char) → List (List Char)
  | [] => []
  | (key, before, l, after) :: rest => (key.text ++ ':' :: (before ++ (text l ++ after))) :: memberTexts rest
termination_by structural members => members

end

mutual

def value : Layout → Json
  | .scalar _ content => content
  | .array _ items => .array (itemValues items) .closed
  | .object _ members => .object (memberValues members) .closed
termination_by structural l => l

def itemValues : List (List Char × Layout × List Char) → List Json
  | [] => []
  | (_, l, _) :: rest => value l :: itemValues rest
termination_by structural items => items

def memberValues : List (KeyText × List Char × Layout × List Char) → List (Json × Json)
  | [] => []
  | (key, _, l, _) :: rest => (key.name, value l) :: memberValues rest
termination_by structural members => members

end

mutual

/-- Scalars are written as tokens, and only blanks stand between the parts. -/
def Legal : Layout → Prop
  | .scalar token content => Token token content
  | .array inner items => Blank inner ∧ ItemsLegal items
  | .object inner members => Blank inner ∧ MembersLegal members
termination_by structural l => l

def ItemsLegal : List (List Char × Layout × List Char) → Prop
  | [] => True
  | (before, l, after) :: rest => (Blank before ∧ Legal l ∧ Blank after) ∧ ItemsLegal rest
termination_by structural items => items

def MembersLegal : List (KeyText × List Char × Layout × List Char) → Prop
  | [] => True
  | (key, before, l, after) :: rest => (key.Legal ∧ Blank before ∧ Legal l ∧ Blank after) ∧ MembersLegal rest
termination_by structural members => members

end

variable {items : List Item} {members : List Member}

theorem itemsLegal_iff : ItemsLegal items ↔ ∀ item ∈ items, Blank item.1 ∧ item.2.1.Legal ∧ Blank item.2.2 := by
  induction items with
  | nil => simp [ItemsLegal]
  | cons item items ih =>
    obtain ⟨before, l, after⟩ := item
    rw [List.forall_mem_cons, ← ih]
    rfl

theorem membersLegal_iff : MembersLegal members ↔
    ∀ m ∈ members, m.1.Legal ∧ Blank m.2.1 ∧ m.2.2.1.Legal ∧ Blank m.2.2.2 := by
  induction members with
  | nil => simp [MembersLegal]
  | cons m members ih =>
    obtain ⟨key, before, l, after⟩ := m
    rw [List.forall_mem_cons, ← ih]
    rfl

theorem itemValues_eq_map (items : List Item) : itemValues items = items.map fun item => item.2.1.value := by
  induction items with
  | nil => rfl
  | cons item items ih => rw [List.map_cons, ← ih]; rfl

theorem memberValues_eq_map (members : List Member) :
    memberValues members = members.map fun m => (m.1.name, m.2.2.1.value) := by
  induction members with
  | nil => rfl
  | cons m members ih => rw [List.map_cons, ← ih]; rfl

end Layout

/-! ## Steps of the reader -/

variable {steps : Nat} {cs cs' rest inner : List Char} {j k v : Json} {js : List Json} {ms : List (Json × Json)}

theorem value_skipSpace (steps : Nat) (cs : List Char) : value steps (skipSpace cs) = value steps cs := by
  cases steps with
  | zero => rfl
  | succ steps => rw [value, value, skipSpace_skipSpace]

theorem value_append {b : List Char} (hb : Blank b) (cs : List Char) : value steps (b ++ cs) = value steps cs := by
  rw [← value_skipSpace, skipSpace_append hb, value_skipSpace]

theorem itemsOf_skipSpace (steps : Nat) (cs : List Char) : itemsOf steps (skipSpace cs) = itemsOf steps cs := by
  cases steps with
  | zero => rfl
  | succ steps => rw [itemsOf, itemsOf, value_skipSpace]

theorem value_items (hinner : Blank inner) (hcs : Opens (skipSpace cs)) (h : itemsOf steps cs = (js, .closed, some rest)) :
    value (steps + 1) ('[' :: (inner ++ cs)) = (.array js .closed, some rest) := by
  obtain ⟨c, cs', heq, -, hsquare, -⟩ := hcs
  rw [← itemsOf_skipSpace, heq] at h
  rw [value, skipSpace_cons rfl]
  simp only [Char.reduceEq, if_false, if_true, skipSpace_append hinner, heq, hsquare, h]

theorem value_members (hinner : Blank inner) (hcs : Opens (skipSpace cs))
    (h : membersOf steps (skipSpace cs) = (ms, .closed, some rest)) :
    value (steps + 1) ('\x7b' :: (inner ++ cs)) = (.object ms .closed, some rest) := by
  obtain ⟨c, cs', heq, -, -, hcurly⟩ := hcs
  rw [heq] at h
  rw [value, skipSpace_cons rfl]
  simp only [Char.reduceEq, if_false, if_true, skipSpace_append hinner, heq, hcurly, h]

theorem itemsOf_end (h : value steps cs = (j, some cs')) (hend : skipSpace cs' = ']' :: rest) :
    itemsOf (steps + 1) cs = ([j], .closed, some rest) := by
  rw [itemsOf, h]
  simp only [hend, if_true]

theorem itemsOf_next {next : List Char} (h : value steps cs = (j, some cs')) (hcomma : skipSpace cs' = ',' :: next)
    (hopens : Opens (skipSpace next)) (hnext : itemsOf steps next = (js, .closed, some rest)) :
    itemsOf (steps + 1) cs = (j :: js, .closed, some rest) := by
  obtain ⟨c, cs'', heq, -, hsquare, -⟩ := hopens
  rw [← itemsOf_skipSpace, heq] at hnext
  rw [itemsOf, h]
  simp only [hcomma, Char.reduceEq, if_false, if_true, heq, hsquare, hnext]

theorem membersOf_end {afterKey afterColon : List Char} (hkey : quoted cs = (k, some afterKey))
    (hcolon : skipSpace afterKey = ':' :: afterColon) (h : value steps afterColon = (v, some cs'))
    (hend : skipSpace cs' = '\x7d' :: rest) : membersOf (steps + 1) ('"' :: cs) = ([(k, v)], .closed, some rest) := by
  rw [membersOf, hkey]
  simp only [hcolon, if_true, h, hend]

theorem membersOf_next {afterKey afterColon next : List Char} (hkey : quoted cs = (k, some afterKey))
    (hcolon : skipSpace afterKey = ':' :: afterColon) (h : value steps afterColon = (v, some cs'))
    (hcomma : skipSpace cs' = ',' :: next) (hopens : Opens (skipSpace next))
    (hnext : membersOf steps (skipSpace next) = (ms, .closed, some rest)) :
    membersOf (steps + 1) ('"' :: cs) = ((k, v) :: ms, .closed, some rest) := by
  obtain ⟨c, cs'', heq, -, -, hcurly⟩ := hopens
  rw [heq] at hnext
  rw [membersOf, hkey]
  simp only [hcolon, if_true, h, hcomma, Char.reduceEq, if_false, heq, hcurly, hnext]

/-! ## Reading a layout -/

theorem intercalate_comma (x y : List Char) (pieces : List (List Char)) :
    [','].intercalate (x :: y :: pieces) = x ++ ',' :: [','].intercalate (y :: pieces) := by
  rw [List.intercalate_cons_cons, List.append_assoc, List.singleton_append]

theorem Opens.skipSpace (h : Opens cs) (rest : List Char) : Json.skipSpace (cs ++ rest) = cs ++ rest := by
  obtain ⟨c, cs, rfl, hspace, -⟩ := h
  exact skipSpace_cons hspace _

namespace Layout

theorem itemTexts_comma (before after : List Char) (l : Layout) (item : Item) (items : List Item) :
    [','].intercalate (itemTexts ((before, l, after) :: item :: items))
      = before ++ (l.text ++ after) ++ ',' :: [','].intercalate (itemTexts (item :: items)) := by
  obtain ⟨before', l', after'⟩ := item
  exact intercalate_comma _ _ _

theorem memberTexts_comma (key : KeyText) (before after : List Char) (l : Layout) (m : Member) (members : List Member) :
    [','].intercalate (memberTexts ((key, before, l, after) :: m :: members))
      = key.text ++ ':' :: (before ++ (l.text ++ after)) ++ ',' :: [','].intercalate (memberTexts (m :: members)) := by
  obtain ⟨key', before', l', after'⟩ := m
  exact intercalate_comma _ _ _

theorem opens_text {l : Layout} (h : l.Legal) : Opens l.text := by
  cases l with
  | scalar token content => exact Token.opens h
  | array inner items => exact ⟨'[', _, rfl, rfl, by decide, by decide⟩
  | object inner members => exact ⟨'\x7b', _, rfl, rfl, by decide, by decide⟩

theorem opens_items {item : Item} {items : List Item} (h : ItemsLegal (item :: items)) (rest : List Char) :
    Opens (skipSpace ([','].intercalate (itemTexts (item :: items)) ++ rest)) := by
  obtain ⟨before, l, after⟩ := item
  obtain ⟨⟨hbefore, hl, -⟩, -⟩ := h
  have hfirst : ∃ more, [','].intercalate (itemTexts ((before, l, after) :: items)) ++ rest = before ++ (l.text ++ more) := by
    cases items with
    | nil => exact ⟨after ++ rest, by simp only [itemTexts, List.intercalate_singleton, List.append_assoc]⟩
    | cons item items =>
      refine ⟨after ++ ',' :: ([','].intercalate (itemTexts (item :: items)) ++ rest), ?_⟩
      simp only [itemTexts_comma, List.append_assoc, List.cons_append]
  obtain ⟨more, hmore⟩ := hfirst
  rw [hmore, skipSpace_append hbefore, (opens_text hl).skipSpace]
  exact (opens_text hl).append more

/-- A member starts with the quote of its key. -/
theorem skipSpace_key {key : KeyText} (h : key.Legal) (rest : List Char) :
    ∃ cs, quoted cs = (key.name, some []) ∧ skipSpace (key.text ++ rest) = '"' :: (cs ++ (key.after ++ rest)) := by
  obtain ⟨hbefore, ⟨cs, htoken, hquoted⟩, -⟩ := h
  refine ⟨cs, hquoted, ?_⟩
  rw [KeyText.text, htoken, List.append_assoc, skipSpace_append hbefore, List.append_assoc]
  exact skipSpace_cons rfl _

theorem memberTexts_cons (key : KeyText) (before after : List Char) (l : Layout) (members : List Member) :
    ∃ more, [','].intercalate (memberTexts ((key, before, l, after) :: members)) = key.text ++ ':' :: more := by
  cases members with
  | nil => exact ⟨_, by rw [memberTexts, memberTexts, List.intercalate_singleton]⟩
  | cons m members => exact ⟨_, by rw [memberTexts_comma, List.append_assoc, List.cons_append]⟩

theorem opens_members {m : Member} {members : List Member} (h : MembersLegal (m :: members)) (rest : List Char) :
    Opens (skipSpace ([','].intercalate (memberTexts (m :: members)) ++ rest)) := by
  obtain ⟨key, before, l, after⟩ := m
  obtain ⟨more, hmore⟩ := memberTexts_cons key before after l members
  obtain ⟨cs, -, hskip⟩ := skipSpace_key h.1.1 (':' :: more ++ rest)
  rw [hmore, List.append_assoc, hskip]
  exact ⟨_, _, rfl, rfl, by decide, by decide⟩

theorem skipSpace_after {after : List Char} (hafter : Blank after) {c : Char} (hc : isSpace c = false) (rest : List Char) :
    skipSpace (after ++ c :: rest) = c :: rest := by
  rw [skipSpace_append hafter, skipSpace_cons hc]

mutual

/-- A legal layout is read from its text. -/
theorem read_text : ∀ {l : Layout} {steps : Nat} {rest : List Char}, l.Legal → Apart rest → l.text.length ≤ steps →
    Json.value steps (l.text ++ rest) = (l.value, some rest)
  | l, 0, _, h, _, hsteps => absurd hsteps (Nat.not_le.mpr (opens_text h).length_pos)
  | .scalar _ _, _ + 1, _, h, hrest, _ => Token.value h hrest
  | .array inner [], steps + 1, rest, h, _, _ => by
    have hskip : skipSpace (inner ++ ']' :: rest) = ']' :: rest := skipSpace_after h.1 rfl rest
    simp only [text, itemTexts, List.intercalate_nil, List.nil_append, List.cons_append, List.append_assoc, Json.value,
      skipSpace_cons (rfl : isSpace '[' = false), hskip, Char.reduceEq, if_false, if_true]
    rfl
  | .array inner (item :: items), steps + 1, rest, h, _, hsteps => by
    simp only [text, List.length_cons, List.length_append, List.length_nil] at hsteps
    rw [text, List.cons_append, List.append_assoc, List.append_assoc]
    exact value_items h.1 (opens_items h.2 _) (read_items h.2 (List.cons_ne_nil _ _) (by omega))
  | .object inner [], steps + 1, rest, h, _, _ => by
    have hskip : skipSpace (inner ++ '\x7d' :: rest) = '\x7d' :: rest := skipSpace_after h.1 rfl rest
    simp only [text, memberTexts, List.intercalate_nil, List.nil_append, List.cons_append, List.append_assoc, Json.value,
      skipSpace_cons (rfl : isSpace '\x7b' = false), hskip, Char.reduceEq, if_false, if_true]
    rfl
  | .object inner (m :: members), steps + 1, rest, h, _, hsteps => by
    simp only [text, List.length_cons, List.length_append, List.length_nil] at hsteps
    rw [text, List.cons_append, List.append_assoc, List.append_assoc]
    exact value_members h.1 (opens_members h.2 _) (read_members h.2 (List.cons_ne_nil _ _) (by omega))
termination_by structural l => l

theorem read_items : ∀ {items : List (List Char × Layout × List Char)} {steps : Nat} {rest : List Char},
    ItemsLegal items → items ≠ [] → ([','].intercalate (itemTexts items)).length < steps →
    itemsOf steps ([','].intercalate (itemTexts items) ++ ']' :: rest) = (itemValues items, .closed, some rest)
  | [], _, _, _, hne, _ => absurd rfl hne
  | [(before, l, after)], steps + 1, rest, h, _, hsteps => by
    obtain ⟨⟨hbefore, hl, hafter⟩, -⟩ := h
    simp only [itemTexts, List.intercalate_singleton, List.length_append] at hsteps
    have hread := read_text hl (.after_blank hafter (.cons (by decide) rest) : Apart (after ++ ']' :: rest))
      (show l.text.length ≤ steps by omega)
    rw [← value_append hbefore] at hread
    rw [itemTexts, itemTexts, List.intercalate_singleton, List.append_assoc, List.append_assoc]
    exact itemsOf_end hread (skipSpace_after hafter rfl rest)
  | (before, l, after) :: item :: items, steps + 1, rest, h, _, hsteps => by
    obtain ⟨⟨hbefore, hl, hafter⟩, hrest⟩ := h
    simp only [itemTexts_comma, List.length_append, List.length_cons] at hsteps
    have hread := read_text hl (.after_blank hafter (.cons (by decide) _) :
      Apart (after ++ ',' :: ([','].intercalate (itemTexts (item :: items)) ++ ']' :: rest)))
      (show l.text.length ≤ steps by omega)
    rw [← value_append hbefore] at hread
    have hnext : itemsOf steps (_ ++ ']' :: rest) = _ := read_items hrest (List.cons_ne_nil _ _) (by omega)
    rw [itemTexts_comma, List.append_assoc, List.append_assoc, List.append_assoc, List.cons_append]
    exact itemsOf_next hread (skipSpace_after hafter rfl _) (opens_items hrest _) hnext
termination_by structural items => items

theorem read_members : ∀ {members : List (KeyText × List Char × Layout × List Char)} {steps : Nat} {rest : List Char},
    MembersLegal members → members ≠ [] → ([','].intercalate (memberTexts members)).length < steps →
    membersOf steps (skipSpace ([','].intercalate (memberTexts members) ++ '\x7d' :: rest))
      = (memberValues members, .closed, some rest)
  | [], _, _, _, hne, _ => absurd rfl hne
  | [(key, before, l, after)], steps + 1, rest, h, _, hsteps => by
    obtain ⟨⟨hkey, hbefore, hl, hafter⟩, -⟩ := h
    simp only [memberTexts, List.intercalate_singleton, List.length_append, List.length_cons] at hsteps
    have hread := read_text hl (.after_blank hafter (.cons (by decide) rest) : Apart (after ++ '\x7d' :: rest))
      (show l.text.length ≤ steps by omega)
    rw [← value_append hbefore] at hread
    obtain ⟨cs, hquoted, hskip⟩ := skipSpace_key hkey (':' :: (before ++ (l.text ++ (after ++ '\x7d' :: rest))))
    rw [memberTexts, memberTexts, List.intercalate_singleton, List.append_assoc, List.cons_append, List.append_assoc,
      List.append_assoc, hskip]
    exact membersOf_end (quoted_append hquoted _) (skipSpace_after hkey.2.2 rfl _) hread (skipSpace_after hafter rfl rest)
  | (key, before, l, after) :: m :: members, steps + 1, rest, h, _, hsteps => by
    obtain ⟨⟨hkey, hbefore, hl, hafter⟩, hrest⟩ := h
    simp only [memberTexts_comma, List.length_append, List.length_cons] at hsteps
    have hread := read_text hl (.after_blank hafter (.cons (by decide) _) :
      Apart (after ++ ',' :: ([','].intercalate (memberTexts (m :: members)) ++ '\x7d' :: rest)))
      (show l.text.length ≤ steps by omega)
    rw [← value_append hbefore] at hread
    have hnext : membersOf steps (skipSpace (_ ++ '\x7d' :: rest)) = _ :=
      read_members hrest (List.cons_ne_nil _ _) (by omega)
    obtain ⟨cs, hquoted, hskip⟩ := skipSpace_key hkey
      (':' :: (before ++ (l.text ++ (after ++ ',' :: ([','].intercalate (memberTexts (m :: members)) ++ '\x7d' :: rest)))))
    rw [memberTexts_comma, List.append_assoc, List.append_assoc, List.cons_append, List.cons_append, List.append_assoc,
      List.append_assoc, hskip]
    exact membersOf_next (quoted_append hquoted _) (skipSpace_after hkey.2.2 rfl _) hread (skipSpace_after hafter rfl _)
      (opens_members hrest _) hnext
termination_by structural members => members

end

end Layout

/-! ## The layout of a text -/

/-- An element is followed by the end of the array, or by a comma and the next element. -/
theorem itemsOf_inv {close : Close} (h : itemsOf (steps + 1) cs = (js, close, some rest)) :
    ∃ j cs', value steps cs = (j, some cs') ∧
      (skipSpace cs' = ']' :: rest ∧ js = [j] ∧ close = .closed ∨
        ∃ next js', skipSpace cs' = ',' :: next ∧ itemsOf steps next = (js', close, some rest) ∧ js = j :: js') := by
  rw [itemsOf] at h
  split at h
  · cases h
  rename_i j cs' hvalue
  refine ⟨j, cs', hvalue, ?_⟩
  split at h
  · cases h
  rename_i c cs'' hskip
  split at h
  · rename_i hc
    obtain ⟨rfl, hclosed⟩ := Prod.mk.inj h
    obtain ⟨rfl, hrest⟩ := Prod.mk.inj hclosed
    exact .inl ⟨by rw [hskip, hc, Option.some.inj hrest], rfl, rfl⟩
  split at h
  · rename_i hc
    split at h
    · cases h
    rename_i d ds hnext
    split at h
    · cases h
    · rw [← hnext, itemsOf_skipSpace] at h
      obtain ⟨rfl, hrest⟩ := Prod.mk.inj h
      exact .inr ⟨cs'', _, by rw [hskip, hc], Prod.ext rfl hrest, rfl⟩
  · cases h

/-- A member is a key, a colon and a value, followed by the end of the object, or by a comma and the next member. -/
theorem membersOf_inv {close : Close} (h : membersOf (steps + 1) cs = (ms, close, some rest)) :
    ∃ keyCs k afterKey afterColon v cs', cs = '"' :: keyCs ∧ quoted keyCs = (k, some afterKey) ∧
      skipSpace afterKey = ':' :: afterColon ∧ value steps afterColon = (v, some cs') ∧
      (skipSpace cs' = '\x7d' :: rest ∧ ms = [(k, v)] ∧ close = .closed ∨
        ∃ next ms', skipSpace cs' = ',' :: next ∧ membersOf steps (skipSpace next) = (ms', close, some rest) ∧
          ms = (k, v) :: ms') := by
  rw [membersOf.eq_def] at h
  simp only at h
  split at h
  · rename_i keyCs
    split at h
    · cases h
    rename_i k afterKey hkey
    split at h
    · cases h
    rename_i c afterColon hcolon
    split at h
    · rename_i hc
      split at h
      · cases h
      rename_i v cs' hvalue
      refine ⟨keyCs, k, afterKey, afterColon, v, cs', rfl, hkey, by rw [hcolon, hc], hvalue, ?_⟩
      split at h
      · cases h
      rename_i c' cs'' hskip
      split at h
      · rename_i hc'
        obtain ⟨rfl, hclosed⟩ := Prod.mk.inj h
        obtain ⟨rfl, hrest⟩ := Prod.mk.inj hclosed
        exact .inl ⟨by rw [hskip, hc', Option.some.inj hrest], rfl, rfl⟩
      split at h
      · rename_i hc'
        split at h
        · cases h
        rename_i d ds hnext
        split at h
        · cases h
        · obtain ⟨rfl, hrest⟩ := Prod.mk.inj h
          exact .inr ⟨cs'', _, by rw [hskip, hc'], by rw [hnext]; exact Prod.ext rfl hrest, rfl⟩
      · cases h
    · cases h
  · cases h

/-- A value is a container or a scalar. -/
theorem value_inv {c : Char} (hspace : isSpace c = false) (h : value (steps + 1) (c :: cs) = (j, some rest)) :
    (c = '[' ∧ (skipSpace cs = ']' :: rest ∧ j = list [] ∨
      ∃ js close, itemsOf steps cs = (js, close, some rest) ∧ j = .array js close)) ∨
    (c = '\x7b' ∧ (skipSpace cs = '\x7d' :: rest ∧ j = record [] ∨
      ∃ ms close, membersOf steps (skipSpace cs) = (ms, close, some rest) ∧ j = .object ms close)) ∨
    ∃ token, c :: cs = token ++ rest ∧ Token token j := by
  by_cases hsquare : c = '['
  · subst hsquare
    refine .inl ⟨rfl, ?_⟩
    rw [value, skipSpace_cons hspace] at h
    simp only [Char.reduceEq, if_false, if_true] at h
    split at h
    · cases h
    rename_i d ds hskip
    split at h
    · rename_i hd
      obtain ⟨rfl, hrest⟩ := Prod.mk.inj h
      exact .inl ⟨by rw [hskip, hd, Option.some.inj hrest], rfl⟩
    · rw [← hskip, itemsOf_skipSpace] at h
      obtain ⟨rfl, hrest⟩ := Prod.mk.inj h
      exact .inr ⟨_, _, Prod.ext rfl (Prod.ext rfl hrest), rfl⟩
  by_cases hcurly : c = '\x7b'
  · subst hcurly
    refine .inr (.inl ⟨rfl, ?_⟩)
    rw [value, skipSpace_cons hspace] at h
    simp only [Char.reduceEq, if_false, if_true] at h
    split at h
    · cases h
    rename_i d ds hskip
    split at h
    · rename_i hd
      obtain ⟨rfl, hrest⟩ := Prod.mk.inj h
      exact .inl ⟨by rw [hskip, hd, Option.some.inj hrest], rfl⟩
    · obtain ⟨rfl, hrest⟩ := Prod.mk.inj h
      exact .inr ⟨_, _, by rw [hskip]; exact Prod.ext rfl (Prod.ext rfl hrest), rfl⟩
  · exact .inr (.inr (exists_token hspace hsquare hcurly h))

open Layout

/-- With so many steps, what is read as a value is the text of a legal layout after blanks. -/
def ValuesLaidOut (steps : Nat) : Prop :=
  ∀ {cs j rest}, value steps cs = (j, some rest) →
    ∃ (b : List Char) (l : Layout), Blank b ∧ l.Legal ∧ l.value = j ∧ cs = b ++ (l.text ++ rest)

def ItemsLaidOut (steps : Nat) : Prop :=
  ∀ {cs js close rest}, itemsOf steps cs = (js, close, some rest) → close = .closed ∧
    ∃ items : List Item, ItemsLegal items ∧ itemValues items = js ∧ items ≠ [] ∧
      cs = [','].intercalate (itemTexts items) ++ ']' :: rest

def MembersLaidOut (steps : Nat) : Prop :=
  ∀ {cs ms close rest}, membersOf steps (skipSpace cs) = (ms, close, some rest) → close = .closed ∧
    ∃ members : List Member, MembersLegal members ∧ memberValues members = ms ∧ members ≠ [] ∧
      cs = [','].intercalate (memberTexts members) ++ '\x7d' :: rest

theorem valuesLaidOut_succ (hitems : ItemsLaidOut steps) (hmembers : MembersLaidOut steps) : ValuesLaidOut (steps + 1) := by
  intro cs j rest h
  obtain ⟨b, hb, hcs⟩ := skipSpace_split cs
  rw [← value_skipSpace] at h
  cases hskip : skipSpace cs with
  | nil =>
    rw [hskip] at h
    cases h
  | cons c cs' =>
    rw [hskip] at h hcs
    rcases value_inv (isSpace_of_skipSpace hskip) h with ⟨rfl, harray⟩ | ⟨rfl, hobject⟩ | ⟨token, htoken, hj⟩
    · rcases harray with ⟨hend, rfl⟩ | ⟨js, close, hjs, rfl⟩
      · obtain ⟨inner, hinner, hcs'⟩ := skipSpace_split cs'
        refine ⟨b, .array inner [], hb, ⟨hinner, trivial⟩, rfl, ?_⟩
        rw [hcs, hcs', hend]
        simp [Layout.text, itemTexts]
      · obtain ⟨rfl, items, hlegal, rfl, -, rfl⟩ := hitems hjs
        refine ⟨b, .array [] items, hb, ⟨.nil, hlegal⟩, rfl, ?_⟩
        rw [hcs]
        simp [Layout.text]
    · rcases hobject with ⟨hend, rfl⟩ | ⟨ms, close, hms, rfl⟩
      · obtain ⟨inner, hinner, hcs'⟩ := skipSpace_split cs'
        refine ⟨b, .object inner [], hb, ⟨hinner, trivial⟩, rfl, ?_⟩
        rw [hcs, hcs', hend]
        simp [Layout.text, memberTexts]
      · obtain ⟨rfl, members, hlegal, rfl, -, rfl⟩ := hmembers hms
        refine ⟨b, .object [] members, hb, ⟨.nil, hlegal⟩, rfl, ?_⟩
        rw [hcs]
        simp [Layout.text]
    · refine ⟨b, .scalar token j, hb, hj, rfl, ?_⟩
      rw [hcs, htoken]
      rfl

theorem itemsLaidOut_succ (hvalue : ValuesLaidOut steps) (hitems : ItemsLaidOut steps) : ItemsLaidOut (steps + 1) := by
  intro cs js close rest h
  obtain ⟨j, cs', hj, hrest⟩ := itemsOf_inv h
  obtain ⟨b, l, hb, hl, rfl, rfl⟩ := hvalue hj
  obtain ⟨after, hafter, hcs'⟩ := skipSpace_split cs'
  rcases hrest with ⟨hend, rfl, rfl⟩ | ⟨next, js', hcomma, hnext, rfl⟩
  · refine ⟨rfl, [(b, l, after)], ⟨⟨hb, hl, hafter⟩, trivial⟩, rfl, List.cons_ne_nil _ _, ?_⟩
    rw [hcs', hend]
    simp [itemTexts]
  · obtain ⟨rfl, items, hlegal, rfl, hne, rfl⟩ := hitems hnext
    refine ⟨rfl, (b, l, after) :: items, ⟨⟨hb, hl, hafter⟩, hlegal⟩, rfl, List.cons_ne_nil _ _, ?_⟩
    rw [hcs', hcomma]
    cases items with
    | nil => exact absurd rfl hne
    | cons item items => simp [itemTexts_comma]

theorem membersLaidOut_succ (hvalue : ValuesLaidOut steps) (hmembers : MembersLaidOut steps) :
    MembersLaidOut (steps + 1) := by
  intro cs ms close rest h
  obtain ⟨keyCs, k, afterKey, afterColon, v, cs', hkey, hk, hcolon, hv, hrest⟩ := membersOf_inv h
  obtain ⟨b, l, hb, hl, rfl, rfl⟩ := hvalue hv
  obtain ⟨before, hbefore, hcs⟩ := skipSpace_split cs
  obtain ⟨between, hbetween, hafterKey⟩ := skipSpace_split afterKey
  obtain ⟨after, hafter, hcs'⟩ := skipSpace_split cs'
  obtain ⟨body, rfl, hquoted⟩ := quoted_takes hk
  have hlegal : KeyText.Legal ⟨before, '"' :: body, k, between⟩ :=
    ⟨hbefore, ⟨body, rfl, by simpa using hquoted [] trivial⟩, hbetween⟩
  rw [hkey, hafterKey, hcolon] at hcs
  rcases hrest with ⟨hend, rfl, rfl⟩ | ⟨next, ms', hcomma, hnext, rfl⟩
  · refine ⟨rfl, [(⟨before, '"' :: body, k, between⟩, b, l, after)], ⟨⟨hlegal, hb, hl, hafter⟩, trivial⟩, rfl,
      List.cons_ne_nil _ _, ?_⟩
    rw [hcs, hcs', hend]
    simp [memberTexts, KeyText.text]
  · obtain ⟨rfl, members, hmembersLegal, rfl, hne, rfl⟩ := hmembers hnext
    refine ⟨rfl, (⟨before, '"' :: body, k, between⟩, b, l, after) :: members,
      ⟨⟨hlegal, hb, hl, hafter⟩, hmembersLegal⟩, rfl, List.cons_ne_nil _ _, ?_⟩
    rw [hcs, hcs', hcomma]
    cases members with
    | nil => exact absurd rfl hne
    | cons m members => simp [memberTexts_comma, KeyText.text]

theorem laidOut (steps : Nat) : ValuesLaidOut steps ∧ ItemsLaidOut steps ∧ MembersLaidOut steps := by
  induction steps with
  | zero => exact ⟨fun h => (by cases h), fun h => (by cases h), fun h => (by cases h)⟩
  | succ steps ih =>
    obtain ⟨hvalue, hitems, hmembers⟩ := ih
    exact ⟨valuesLaidOut_succ hitems hmembers, itemsLaidOut_succ hvalue hitems, membersLaidOut_succ hvalue hmembers⟩

/-! ## Texts that break off -/

section Broken

variable {close : Close} {afterComma : Bool} {fault : Fault}

theorem skipFault_stop (opening : Opening) (fault : Fault) : skipFault (stop opening fault) ≠ none := nofun

theorem skipFault_array_broken : skipFault (.array js (.broken afterComma fault)) ≠ none := by
  rw [ne_eq, skipFault_array_eq_none_iff]
  rintro ⟨-, hclose⟩
  cases hclose

theorem skipFault_object_broken : skipFault (.object ms (.broken afterComma fault)) ≠ none := by
  rw [ne_eq, skipFault_object_eq_none_iff]
  rintro ⟨-, hclose⟩
  cases hclose

theorem skipFault_array_cons (h : skipFault j ≠ none ∨ skipFault (.array js close) ≠ none) :
    skipFault (.array (j :: js) close) ≠ none := by
  rw [ne_eq, skipFault_array_eq_none_iff, List.forall_mem_cons]
  rintro ⟨⟨hj, hjs⟩, hclose⟩
  rcases h with h | h
  · exact h hj
  · exact h (skipFault_array_eq_none_iff.mpr ⟨hjs, hclose⟩)

theorem skipFault_object_cons (h : skipFault v ≠ none ∨ skipFault (.object ms close) ≠ none) :
    skipFault (.object ((k, v) :: ms) close) ≠ none := by
  rw [ne_eq, skipFault_object_eq_none_iff, List.forall_mem_cons]
  rintro ⟨⟨⟨-, hv⟩, hms⟩, hclose⟩
  rcases h with h | h
  · exact h hv
  · exact h (skipFault_object_eq_none_iff.mpr ⟨hms, hclose⟩)

end Broken

/-- With so many steps, skipping finds a fault in a value that the reader does not get through. -/
def ValuesBreak (steps : Nat) : Prop := ∀ {cs j}, value steps cs = (j, none) → skipFault j ≠ none

def ItemsBreak (steps : Nat) : Prop :=
  ∀ {cs js close}, itemsOf steps cs = (js, close, none) → skipFault (.array js close) ≠ none

def MembersBreak (steps : Nat) : Prop :=
  ∀ {cs ms close}, membersOf steps cs = (ms, close, none) → skipFault (.object ms close) ≠ none

theorem valuesBreak_succ (hitems : ItemsBreak steps) (hmembers : MembersBreak steps) : ValuesBreak (steps + 1) := by
  intro cs j h
  rw [value] at h
  split at h
  · cases h
    exact skipFault_stop _ _
  split at h
  · exact quoted_none h
  split at h
  · split at h
    · cases h
      exact skipFault_array_broken
    split at h
    · cases h
    · obtain ⟨rfl, hrest⟩ := Prod.mk.inj h
      exact hitems (Prod.ext rfl (Prod.ext rfl hrest))
  split at h
  · split at h
    · cases h
      exact skipFault_object_broken
    split at h
    · cases h
    · obtain ⟨rfl, hrest⟩ := Prod.mk.inj h
      exact hmembers (Prod.ext rfl (Prod.ext rfl hrest))
  split at h
  · exact numeral_none h
  split at h
  · exact numeral_none h
  split at h
  · exact word_none h
  split at h
  · exact word_none h
  split at h
  · exact word_none h
  · cases h
    exact skipFault_stop _ _

theorem itemsBreak_succ (hvalue : ValuesBreak steps) (hitems : ItemsBreak steps) : ItemsBreak (steps + 1) := by
  intro cs js close h
  rw [itemsOf] at h
  split at h
  · rename_i item hitem
    cases h
    exact skipFault_array_cons (.inl (hvalue hitem))
  split at h
  · cases h
    exact skipFault_array_broken
  split at h
  · cases h
  split at h
  · split at h
    · cases h
      exact skipFault_array_broken
    split at h
    · cases h
      exact skipFault_array_broken
    · obtain ⟨rfl, hrest⟩ := Prod.mk.inj h
      exact skipFault_array_cons (.inr (hitems (Prod.ext rfl hrest)))
  · cases h
    exact skipFault_array_broken

/-- Where no value is found after a key, one that cannot be skipped stands for it. -/
theorem membersBreak_succ (hvalue : ValuesBreak steps) (hmembers : MembersBreak steps) : MembersBreak (steps + 1) := by
  intro cs ms close h
  rw [membersOf.eq_def] at h
  simp only at h
  split at h
  · split at h
    · cases h
      exact skipFault_object_cons (.inl (skipFault_stop _ _))
    split at h
    · cases h
      exact skipFault_object_cons (.inl (skipFault_stop _ _))
    split at h
    · split at h
      · rename_i v hv
        cases h
        exact skipFault_object_cons (.inl (hvalue hv))
      split at h
      · cases h
        exact skipFault_object_broken
      split at h
      · cases h
      split at h
      · split at h
        · cases h
          exact skipFault_object_broken
        split at h
        · cases h
          exact skipFault_object_broken
        · obtain ⟨rfl, hrest⟩ := Prod.mk.inj h
          exact skipFault_object_cons (.inr (hmembers (Prod.ext rfl hrest)))
      · cases h
        exact skipFault_object_broken
    · cases h
      exact skipFault_object_cons (.inl (skipFault_stop _ _))
  · cases h
    exact skipFault_object_cons (.inl (skipFault_stop _ _))

theorem breaks (steps : Nat) : ValuesBreak steps ∧ ItemsBreak steps ∧ MembersBreak steps := by
  induction steps with
  | zero =>
    refine ⟨fun h => ?_, fun h => ?_, fun h => ?_⟩ <;> cases h
    · exact skipFault_stop _ _
    · exact skipFault_array_broken
    · exact skipFault_object_broken
  | succ steps ih =>
    obtain ⟨hvalue, hitems, hmembers⟩ := ih
    exact ⟨valuesBreak_succ hitems hmembers, itemsBreak_succ hvalue hitems, membersBreak_succ hvalue hmembers⟩

/-! ## Whole texts -/

/-- The text is that of a layout, between blanks. -/
def Lays (t : String) (l : Layout) : Prop :=
  l.Legal ∧ ∃ before after, Blank before ∧ Blank after ∧ t.toList = before ++ (l.text ++ after)

theorem Lays.read {t : String} {l : Layout} (h : Lays t l) : Json.read t = ⟨l.value, false⟩ := by
  obtain ⟨hl, before, after, hbefore, hafter, ht⟩ := h
  have hlength : l.text.length ≤ 2 * t.toList.length + 2 := by
    simp only [ht, List.length_append]
    omega
  have hafterBlank : after.all isSpace = true := List.all_eq_true.mpr hafter
  have hread := read_text hl (Apart.after_blank hafter .nil) hlength
  rw [List.append_nil, ← value_append hbefore, ← ht] at hread
  simp only [Json.read, hread, hafterBlank, Bool.not_true]

/-- A text that holds one value, and that one whole, has a layout. -/
theorem exists_layout {t : String} (htrailing : (Json.read t).trailing = false) (hroot : (Json.read t).root.skipFault = none) :
    ∃ l, Lays t l := by
  unfold Json.read at htrailing hroot
  simp only at htrailing hroot
  split at hroot
  · rename_i j hvalue
    exact absurd hroot ((breaks _).1 hvalue)
  · rename_i j after hvalue
    rw [hvalue] at htrailing
    obtain ⟨before, l, hbefore, hl, -, ht⟩ := (laidOut _).1 hvalue
    exact ⟨l, hl, before, after, hbefore, by simpa [Blank] using htrailing, ht⟩

end SceneScript.Json
