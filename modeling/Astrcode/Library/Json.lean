import Mathlib.Data.List.Basic

/-!
# Compact JSON text

JSON values and their compact rendering: no blanks, object members in the order
they are stored. The rendering is uniquely readable, so the text determines the
value. Everything that compares or hashes values through their text rests on
that one fact.
-/
namespace Astrcode.Library

open List

/-- The characters a rendered number consists of. -/
def isNumberChar (c : Char) : Bool :=
  c.isDigit || c = '-' || c = '+' || c = '.' || c = 'e' || c = 'E'

/-- A number, identified with the numeral it is printed as. -/
structure JsonNumber where
  numeral : String
  nonempty : numeral.toList ≠ []
  numberChars : ∀ c ∈ numeral.toList, isNumberChar c = true
  deriving DecidableEq

/-- The number of a natural. -/
def JsonNumber.ofNat (n : Nat) : JsonNumber where
  numeral := String.ofList (Nat.toDigits 10 n)
  nonempty := by
    rw [String.toList_ofList]
    exact Nat.toDigits_ne_nil
  numberChars c member := by
    rw [String.toList_ofList] at member
    simp [isNumberChar, Nat.isDigit_of_mem_toDigits (by decide) (by decide) member]

inductive Json where
  | null
  | bool (value : Bool)
  | number (value : JsonNumber)
  | string (value : String)
  | array (elements : List Json)
  | object (members : List (String × Json))

def hexDigit (n : Nat) : Char :=
  if n < 10 then Char.ofNat (48 + n) else Char.ofNat (87 + n)

/-- The short escapes, `\u00XX` for the other control characters, and every
remaining character as it stands. -/
def escapeChar (c : Char) : List Char :=
  if c = '"' then ['\\', '"']
  else if c = '\\' then ['\\', '\\']
  else if c = '\x08' then ['\\', 'b']
  else if c = '\x0c' then ['\\', 'f']
  else if c = '\n' then ['\\', 'n']
  else if c = '\r' then ['\\', 'r']
  else if c = '\t' then ['\\', 't']
  else if c.toNat < 32 then
    ['\\', 'u', '0', '0', hexDigit (c.toNat / 16), hexDigit (c.toNat % 16)]
  else [c]

@[simp] def escapeChars (cs : List Char) : List Char := cs.flatMap escapeChar

@[simp] def renderString (s : String) : List Char := '"' :: escapeChars s.toList ++ ['"']

mutual

@[simp] def Json.render : Json → List Char
  | .null => ['n', 'u', 'l', 'l']
  | .bool true => ['t', 'r', 'u', 'e']
  | .bool false => ['f', 'a', 'l', 's', 'e']
  | .number n => n.numeral.toList
  | .string s => renderString s
  | .array [] => ['[', ']']
  | .array (x :: xs) => '[' :: x.render ++ renderElements xs
  | .object [] => ['{', '}']
  | .object ((k, v) :: ms) => '{' :: renderString k ++ ':' :: v.render ++ renderMembers ms

/-- The elements after the first one, with the closing bracket. -/
@[simp] def renderElements : List Json → List Char
  | [] => [']']
  | x :: xs => ',' :: x.render ++ renderElements xs

/-- The members after the first one, with the closing brace. -/
@[simp] def renderMembers : List (String × Json) → List Char
  | [] => ['}']
  | (k, v) :: ms => ',' :: renderString k ++ ':' :: v.render ++ renderMembers ms

end

def Json.text (j : Json) : String := String.ofList j.render

/-! ### Strings are uniquely readable -/

private def hexValue (c : Char) : Nat :=
  if c.isDigit then c.toNat - 48 else c.toNat - 87

private theorem hexValue_hexDigit : ∀ n < 16, hexValue (hexDigit n) = n := by decide

/-- Reads one character of a string body back. -/
private def readChar : List Char → Option (Char × List Char)
  | '\\' :: 'u' :: '0' :: '0' :: a :: b :: rest =>
    some (Char.ofNat (16 * hexValue a + hexValue b), rest)
  | '\\' :: 'b' :: rest => some ('\x08', rest)
  | '\\' :: 'f' :: rest => some ('\x0c', rest)
  | '\\' :: 'n' :: rest => some ('\n', rest)
  | '\\' :: 'r' :: rest => some ('\r', rest)
  | '\\' :: 't' :: rest => some ('\t', rest)
  | '\\' :: c :: rest => some (c, rest)
  | '"' :: _ => none
  | c :: rest => some (c, rest)
  | [] => none

private theorem readChar_escapeChar (c : Char) (rest : List Char) :
    readChar (escapeChar c ++ rest) = some (c, rest) := by
  unfold escapeChar
  by_cases quote : c = '"'
  · subst quote; rfl
  by_cases slash : c = '\\'
  · subst slash; rfl
  by_cases back : c = '\x08'
  · subst back; rfl
  by_cases feed : c = '\x0c'
  · subst feed; rfl
  by_cases line : c = '\n'
  · subst line; rfl
  by_cases ret : c = '\r'
  · subst ret; rfl
  by_cases tab : c = '\t'
  · subst tab; rfl
  simp only [quote, slash, back, feed, line, ret, tab, if_false]
  by_cases control : c.toNat < 32
  · have high := hexValue_hexDigit (c.toNat / 16) (by omega)
    have low := hexValue_hexDigit (c.toNat % 16) (by omega)
    have whole : 16 * (c.toNat / 16) + c.toNat % 16 = c.toNat := by omega
    simp [control, readChar, high, low, whole, Char.ofNat_toNat]
  · simp only [control, if_false, cons_append, nil_append]
    unfold readChar
    split <;> simp_all

private theorem escapeChars_cons (c : Char) (cs : List Char) :
    escapeChars (c :: cs) = escapeChar c ++ escapeChars cs := by
  simp

/-- A string body ends at its first unescaped quote. -/
theorem escapeChars_quote_inj (cs ds r r' : List Char)
    (same : escapeChars cs ++ '"' :: r = escapeChars ds ++ '"' :: r') : cs = ds ∧ r = r' := by
  induction cs generalizing ds with
  | nil =>
    cases ds with
    | nil => simpa using same
    | cons d ds =>
      -- the left side reads as the end of the string, the right side as `d`
      have read := congrArg readChar same
      rw [escapeChars_cons, append_assoc, readChar_escapeChar] at read
      simp [readChar] at read
  | cons c cs ih =>
    cases ds with
    | nil =>
      have read := congrArg readChar same
      rw [escapeChars_cons, append_assoc, readChar_escapeChar] at read
      simp [readChar] at read
    | cons d ds =>
      have read := congrArg readChar same
      simp only [escapeChars_cons, append_assoc, readChar_escapeChar, Option.some.injEq,
        Prod.mk.injEq] at read
      obtain ⟨rfl, rest⟩ := read
      obtain ⟨rfl, rfl⟩ := ih ds rest
      exact ⟨rfl, rfl⟩

theorem renderString_inj (s t : String) (r r' : List Char)
    (same : renderString s ++ r = renderString t ++ r') : s = t ∧ r = r' := by
  simp only [renderString, cons_append, append_assoc, nil_append,
    cons.injEq, true_and] at same
  obtain ⟨chars, rest⟩ := escapeChars_quote_inj _ _ _ _ same
  exact ⟨String.toList_inj.mp chars, rest⟩

/-! ### Values are uniquely readable -/

/-- The kind of value a text opens, told from its first character alone. -/
private def leadKind (c : Char) : Nat :=
  if c = 'n' then 0 else if c = 't' then 1 else if c = 'f' then 2
  else if c = '"' then 3 else if c = '[' then 4 else if c = '{' then 5 else 6

private def Json.kind : Json → Nat
  | .null => 0
  | .bool true => 1
  | .bool false => 2
  | .string _ => 3
  | .array _ => 4
  | .object _ => 5
  | .number _ => 6

private theorem leadKind_number (c : Char) (number : isNumberChar c = true) : leadKind c = 6 := by
  have differs : ∀ d, isNumberChar d = false → c ≠ d := by
    rintro d other rfl
    rw [number] at other
    cases other
  simp [leadKind, differs 'n' (by decide), differs 't' (by decide), differs 'f' (by decide), differs '"' (by decide), differs '[' (by decide), differs '{' (by decide)]

private theorem render_lead (j : Json) :
    ∃ c rest, j.render = c :: rest ∧ leadKind c = j.kind := by
  cases j with
  | null | string => exact ⟨_, _, rfl, rfl⟩
  | bool value => cases value <;> exact ⟨_, _, rfl, rfl⟩
  | number n =>
    cases chars : n.numeral.toList with
    | nil => exact absurd chars n.nonempty
    | cons c rest =>
      refine ⟨c, rest, by simpa using chars, ?_⟩
      exact leadKind_number c (n.numberChars c (by simp [chars]))
  | array xs => cases xs <;> exact ⟨_, _, rfl, rfl⟩
  | object ms =>
    cases ms with
    | nil => exact ⟨_, _, rfl, rfl⟩
    | cons m ms => obtain ⟨k, v⟩ := m; exact ⟨_, _, rfl, rfl⟩

private theorem kind_eq {a b : Json} {r r' : List Char}
    (same : a.render ++ r = b.render ++ r') : a.kind = b.kind := by
  obtain ⟨c, rest, left, kindA⟩ := render_lead a
  obtain ⟨d, rest', right, kindB⟩ := render_lead b
  rw [left, right, cons_append, cons_append] at same
  rw [← kindA, ← kindB, (cons.inj same).1]

private theorem ctorIdx_eq {a b : Json} {r r' : List Char}
    (same : a.render ++ r = b.render ++ r') : a.ctorIdx = b.ctorIdx := by
  have kinds := kind_eq same
  rcases a with _ | (_ | _) | _ | _ | _ | _ <;> rcases b with _ | (_ | _) | _ | _ | _ | _ <;>
    first | rfl | cases kinds

/-- A closing bracket opens no value, so an empty array is not mistaken for another. -/
private theorem render_not_bracket {r rest : List Char} (j : Json) :
    j.render ++ r ≠ ']' :: rest := by
  intro same
  obtain ⟨c, tail, lead, kind⟩ := render_lead j
  rw [lead, cons_append] at same
  obtain ⟨rfl, -⟩ := cons.inj same
  cases j with
  | bool value => cases value <;> simp [leadKind, Json.kind] at kind
  | number n =>
    have member : ']' ∈ n.numeral.toList := by
      rw [show n.numeral.toList = ']' :: tail by simpa using lead]
      simp
    exact absurd (n.numberChars _ member) (by decide)
  | _ => simp [leadKind, Json.kind] at kind

/-- What follows a value never continues a number. -/
def EndsValue (r : List Char) : Prop :=
  ∀ c rest, r = c :: rest → isNumberChar c = false

theorem endsValue_nil : EndsValue [] := by
  intro c rest impossible
  cases impossible

theorem endsValue_cons {c : Char} {r : List Char} (other : isNumberChar c = false) :
    EndsValue (c :: r) := by
  rintro d rest equal
  cases equal
  exact other

private theorem endsValue_elements (xs : List Json) (r : List Char) :
    EndsValue (renderElements xs ++ r) := by
  cases xs <;> exact endsValue_cons (by decide)

private theorem endsValue_members (ms : List (String × Json)) (r : List Char) :
    EndsValue (renderMembers ms ++ r) := by
  cases ms with
  | nil => exact endsValue_cons (by decide)
  | cons m ms => obtain ⟨k, v⟩ := m; exact endsValue_cons (by decide)

private theorem numeral_inj (cs ds r r' : List Char)
    (left : ∀ c ∈ cs, isNumberChar c = true) (right : ∀ c ∈ ds, isNumberChar c = true)
    (ends : EndsValue r) (ends' : EndsValue r') (same : cs ++ r = ds ++ r') :
    cs = ds ∧ r = r' := by
  induction cs generalizing ds with
  | nil =>
    cases ds with
    | nil => exact ⟨rfl, same⟩
    | cons d ds =>
      have stops := ends d (ds ++ r') same
      rw [right d (by simp)] at stops
      cases stops
  | cons c cs ih =>
    cases ds with
    | nil =>
      have stops := ends' c (cs ++ r) same.symm
      rw [left c (by simp)] at stops
      cases stops
    | cons d ds =>
      obtain ⟨rfl, rest⟩ := cons.inj same
      obtain ⟨rfl, rfl⟩ := ih ds (forall_mem_cons.mp left).2 (forall_mem_cons.mp right).2 rest
      exact ⟨rfl, rfl⟩

-- One case per constructor; different constructors are told apart by `ctorIdx_eq`.
mutual

theorem render_inj : ∀ (a b : Json) (r r' : List Char), EndsValue r → EndsValue r' →
    a.render ++ r = b.render ++ r' → a = b ∧ r = r'
  | .null, b, r, r', _, _, same => by
    cases b with
    | null => exact ⟨rfl, by simpa using same⟩
    | _ => cases ctorIdx_eq same
  | .bool x, b, r, r', _, _, same => by
    cases b with
    | bool y =>
      have kinds := kind_eq same
      cases x <;> cases y <;> simp_all [Json.kind, Json.render]
    | _ => cases ctorIdx_eq same
  | .number n, b, r, r', ends, ends', same => by
    cases b with
    | number m =>
      obtain ⟨chars, rest⟩ := numeral_inj _ _ r r' n.numberChars m.numberChars ends ends'
        (by simpa using same)
      have equal : n = m := by
        cases n; cases m
        simpa using String.toList_inj.mp chars
      exact ⟨by rw [equal], rest⟩
    | _ => cases ctorIdx_eq same
  | .string s, b, r, r', _, _, same => by
    cases b with
    | string t =>
      obtain ⟨rfl, rfl⟩ := renderString_inj s t r r' (by simpa using same)
      exact ⟨rfl, rfl⟩
    | _ => cases ctorIdx_eq same
  | .array [], b, r, r', _, _, same => by
    cases b with
    | array ys =>
      cases ys with
      | nil => exact ⟨rfl, by simpa using same⟩
      | cons y ys =>
        simp only [Json.render, cons_append, nil_append, append_assoc,
          cons.injEq, true_and] at same
        exact absurd same.symm (render_not_bracket y)
    | _ => cases ctorIdx_eq same
  | .array (x :: xs), b, r, r', ends, ends', same => by
    cases b with
    | array ys =>
      cases ys with
      | nil =>
        simp only [Json.render, cons_append, nil_append, append_assoc,
          cons.injEq, true_and] at same
        exact absurd same (render_not_bracket x)
      | cons y ys =>
        obtain ⟨equal, rest⟩ := renderElements_inj (x :: xs) (y :: ys) r r'
          (by simpa using same)
        exact ⟨by rw [equal], rest⟩
    | _ => cases ctorIdx_eq same
  | .object [], b, r, r', _, _, same => by
    cases b with
    | object ms =>
      cases ms with
      | nil => exact ⟨rfl, by simpa using same⟩
      | cons m ms => obtain ⟨k, v⟩ := m; simp at same
    | _ => cases ctorIdx_eq same
  | .object ((k, v) :: ms), b, r, r', ends, ends', same => by
    cases b with
    | object ns =>
      cases ns with
      | nil => simp at same
      | cons n ns =>
        obtain ⟨equal, rest⟩ := renderMembers_inj ((k, v) :: ms) (n :: ns) r r'
          (by simpa using same)
        exact ⟨by rw [equal], rest⟩
    | _ => cases ctorIdx_eq same

theorem renderElements_inj : ∀ (xs ys : List Json) (r r' : List Char),
    renderElements xs ++ r = renderElements ys ++ r' → xs = ys ∧ r = r'
  | [], [], r, r', same => ⟨rfl, by simpa using same⟩
  | [], y :: ys, r, r', same => by simp at same
  | x :: xs, [], r, r', same => by simp at same
  | x :: xs, y :: ys, r, r', same => by
    simp only [renderElements, cons_append, append_assoc, cons.injEq,
      true_and] at same
    obtain ⟨rfl, tail⟩ := render_inj x y _ _ (endsValue_elements xs r)
      (endsValue_elements ys r') same
    obtain ⟨rfl, rest⟩ := renderElements_inj xs ys r r' tail
    exact ⟨rfl, rest⟩

theorem renderMembers_inj : ∀ (ms ns : List (String × Json)) (r r' : List Char),
    renderMembers ms ++ r = renderMembers ns ++ r' → ms = ns ∧ r = r'
  | [], [], r, r', same => ⟨rfl, by simpa using same⟩
  | [], (l, w) :: ns, r, r', same => by simp at same
  | (k, v) :: ms, [], r, r', same => by simp at same
  | (k, v) :: ms, (l, w) :: ns, r, r', same => by
    simp only [renderMembers, cons_append, append_assoc, cons.injEq,
      true_and] at same
    obtain ⟨rfl, value⟩ := renderString_inj k l _ _ same
    obtain ⟨rfl, tail⟩ := render_inj v w _ _ (endsValue_members ms r)
      (endsValue_members ns r') (by simpa using value)
    obtain ⟨rfl, rfl⟩ := renderMembers_inj ms ns r r' tail
    exact ⟨rfl, rfl⟩

end

/-- The text of a value determines the value. -/
theorem text_injective : Function.Injective Json.text := by
  intro a b same
  have chars : a.render ++ [] = b.render ++ [] := by
    simpa [Json.text, String.ofList_inj] using same
  exact (render_inj a b [] [] endsValue_nil endsValue_nil chars).1

instance : DecidableEq Json := fun _ _ => decidable_of_iff _ text_injective.eq_iff

end Astrcode.Library
