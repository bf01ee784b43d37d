import AntRegister.Json.Quoted
import AntRegister.Text.Decimal
/-!
The tokens of a JSON text: punctuation, the three words, numbers and string literals.
-/

namespace AntRegister.Json

inductive Token where
  | openBracket
  | closeBracket
  | openBrace
  | closeBrace
  | comma
  | colon
  | null
  | bool (value : Bool)
  /-- A number; `none` stands for one with a fraction, an exponent or a negative zero. -/
  | number (value : Option Int)
  /-- A string; `none` stands for one that holds half of a surrogate pair. -/
  | text (value : Option String)
  deriving DecidableEq

namespace Token

def isSpace (c : Char) : Bool := c == ' ' || c == '\n' || c == '\r' || c == '\t'

def punctuation? (c : Char) : Option Token :=
  if c = '[' then some .openBracket
  else if c = ']' then some .closeBracket
  else if c = '{' then some .openBrace
  else if c = '}' then some .closeBrace
  else if c = ',' then some .comma
  else if c = ':' then some .colon
  else none

/-- What follows the digits, if there is at least one. -/
def afterDigits? (cs : List Char) : Option (List Char) :=
  match cs with
  | [] => none
  | c :: rest => if Text.isDigit c then some (rest.dropWhile Text.isDigit) else none

/-- What follows the whole part of a number: a lone zero, or digits that start with none. -/
def afterWhole? (cs : List Char) : Option (List Char) :=
  match cs with
  | '0' :: rest => some rest
  | _ => afterDigits? cs

/-- What follows a fraction, if one stands here. -/
def afterFraction? (cs : List Char) : Option (List Char) :=
  match cs with
  | '.' :: rest => afterDigits? rest
  | _ => some cs

/-- What follows an exponent, if one stands here. -/
def afterExponent? (cs : List Char) : Option (List Char) :=
  match cs with
  | e :: rest =>
    if e = 'e' ∨ e = 'E' then
      match rest with
      | s :: more => if s = '+' ∨ s = '-' then afterDigits? more else afterDigits? rest
      | [] => none
    else some cs
  | [] => some []

def whole (cs : List Char) : List Char :=
  match cs with
  | '0' :: _ => ['0']
  | _ => cs.takeWhile Text.isDigit

/-- Whether a fraction or an exponent starts here. -/
def hasFraction (cs : List Char) : Bool :=
  match cs with
  | c :: _ => c == '.' || c == 'e' || c == 'E'
  | [] => false

/-- The integer that digits stand for behind a sign. A negative zero is none. -/
def signed? (negative : Bool) (n : Nat) : Option Int :=
  if negative then (if n = 0 then none else some (-(n : Int))) else some n

/-- A number without its sign, and what follows it. -/
def unsigned? (negative : Bool) (cs : List Char) : Option (Option Int × List Char) := do
  let afterWhole ← afterWhole? cs
  let rest ← afterFraction? afterWhole >>= afterExponent?
  let value := if hasFraction afterWhole then none else signed? negative (Text.valueOf (whole cs))
  return (value, rest)

def number? (cs : List Char) : Option (Option Int × List Char) :=
  match cs with
  | '-' :: rest => unsigned? true rest
  | _ => unsigned? false cs

/-- The first token of a text that starts with none of the blanks, and what follows it. -/
def next? (cs : List Char) : Option (Token × List Char) :=
  match cs with
  | [] => none
  | '"' :: rest => do
    let (ps, rest) ← Quoted.pieces [] rest
    return (.text ((Quoted.join [] ps).map .ofList), rest)
  | 't' :: 'r' :: 'u' :: 'e' :: rest => some (.bool true, rest)
  | 'f' :: 'a' :: 'l' :: 's' :: 'e' :: rest => some (.bool false, rest)
  | 'n' :: 'u' :: 'l' :: 'l' :: rest => some (.null, rest)
  | c :: rest =>
    match punctuation? c with
    | some t => some (t, rest)
    | none => do
      let (n, rest) ← number? (c :: rest)
      return (.number n, rest)

theorem afterDigits?_length {cs rest : List Char} (h : afterDigits? cs = some rest) :
    rest.length < cs.length := by
  unfold afterDigits? at h
  split at h
  · simp at h
  · next c cs =>
    split at h
    · have := (List.dropWhile_suffix (p := Text.isDigit) (l := cs)).length_le
      simp only [Option.some.injEq] at h
      subst h
      simp only [List.length_cons]
      omega
    · simp at h

theorem afterWhole?_length {cs rest : List Char} (h : afterWhole? cs = some rest) :
    rest.length < cs.length := by
  unfold afterWhole? at h
  split at h
  · simp_all
  · exact afterDigits?_length h

theorem afterFraction?_length {cs rest : List Char} (h : afterFraction? cs = some rest) :
    rest.length ≤ cs.length := by
  unfold afterFraction? at h
  split at h
  · have := afterDigits?_length h
    simp only [List.length_cons]
    omega
  · simp_all

theorem afterExponent?_length {cs rest : List Char} (h : afterExponent? cs = some rest) :
    rest.length ≤ cs.length := by
  unfold afterExponent? at h
  split at h
  · next e cs =>
    split at h
    · split at h
      · next s more _ =>
        split at h <;> have := afterDigits?_length h <;> simp only [List.length_cons] at * <;> omega
      · simp at h
    · simp_all
  · simp_all

theorem unsigned?_length {negative : Bool} {cs rest : List Char} {n : Option Int}
    (h : unsigned? negative cs = some (n, rest)) : rest.length < cs.length := by
  simp only [unsigned?, Option.bind_eq_bind, Option.bind_eq_some_iff] at h
  obtain ⟨w, hw, r, ⟨f, hf, hr⟩, h⟩ := h
  have h1 := afterWhole?_length hw
  have h2 := afterFraction?_length hf
  have h3 := afterExponent?_length hr
  simp only [Option.pure_def, Option.some.injEq, Prod.mk.injEq] at h
  obtain ⟨_, rfl⟩ := h
  omega

theorem number?_length {cs rest : List Char} {n : Option Int}
    (h : number? cs = some (n, rest)) : rest.length < cs.length := by
  unfold number? at h
  split at h
  · have := unsigned?_length h
    simp only [List.length_cons]
    omega
  · exact unsigned?_length h

theorem next?_length {cs rest : List Char} {t : Token} (h : next? cs = some (t, rest)) :
    rest.length < cs.length := by
  unfold next? at h
  split at h
  · simp at h
  · simp only [Option.bind_eq_bind, Option.bind_eq_some_iff] at h
    obtain ⟨⟨ps, r⟩, hp, h⟩ := h
    have := Quoted.pieces_length hp
    simp only [Option.pure_def, Option.some.injEq, Prod.mk.injEq] at h
    obtain ⟨_, rfl⟩ := h
    simp only [List.length_cons]
    omega
  · grind
  · grind
  · grind
  · split at h
    · grind
    · simp only [Option.bind_eq_bind, Option.bind_eq_some_iff] at h
      obtain ⟨⟨n, r⟩, hp, h⟩ := h
      simp only [Option.pure_def, Option.some.injEq, Prod.mk.injEq] at h
      obtain ⟨_, rfl⟩ := h
      exact number?_length hp

/-- The tokens of a text; `done` holds those so far, last first. -/
def lexFrom (done : List Token) (cs : List Char) : Option (List Token) :=
  match cs with
  | [] => some done.reverse
  | c :: rest =>
    if isSpace c then lexFrom done rest
    else
      match h : next? (c :: rest) with
      | none => none
      | some (t, after) =>
        have := next?_length h
        lexFrom (t :: done) after
termination_by cs.length
decreasing_by
  · exact Nat.lt_succ_self rest.length
  · assumption

/-- The tokens of a text, unless some part of it is no token. -/
def lex (s : String) : Option (List Token) := lexFrom [] s.toList

end Token

end AntRegister.Json
