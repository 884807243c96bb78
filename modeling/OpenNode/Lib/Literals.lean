import Mathlib

namespace Literals

open List

/-- How a character counts in a number: ASCII characters as themselves, other
decimal digits as their ASCII digits and other spaces as a space. -/
structure Numerals where
  ascii : Char → Char
  ascii_of_lt : ∀ c : Char, c.toNat < 127 → ascii c = c

def isSpace (c : Char) : Bool :=
  c ∈ [' ', '\t', '\n', '\r', '\x0b', '\x0c']

/-- Digits in groups with single underscores between. -/
def digits? (text : List Char) : Option (List Char) :=
  let groups := text.splitOn '_'
  if groups.all fun group => group ≠ [] && group.all Char.isDigit then some groups.flatten else none

/-- Whether a number is negative, and its text without the sign. -/
def unsigned : List Char → Bool × List Char
  | '+' :: rest => (false, rest)
  | '-' :: rest => (true, rest)
  | text => (false, text)

/-- `int(text)`, which refuses more than 4300 digits. -/
def int? (numerals : Numerals) (text : List Char) : Option Int :=
  let (negative, text) := unsigned (((text.map numerals.ascii).dropWhile isSpace).rdropWhile isSpace)
  match digits? text with
  | none => none
  | some digits =>
    if 4300 < digits.length then none
    else
      let value : Int := Nat.ofDigitChars 10 digits 0
      some (if negative then -value else value)

/-- An IP address, of the sixth version with its scope. -/
inductive Address where
  | v4 (a b c d : Fin 256)
  | v6 (value : Nat) (scope : Option (List Char))
deriving DecidableEq

/-- One of the four numbers of an address, without leading zeros. -/
def octet? (part : List Char) : Option (Fin 256) :=
  if part = [] ∨ ¬ part.all Char.isDigit ∨ 3 < part.length ∨ part ≠ ['0'] ∧ part.head? = some '0' then none
  else
    let value := Nat.ofDigitChars 10 part 0
    if small : value < 256 then some ⟨value, small⟩ else none

def v4? (text : List Char) : Option Address :=
  match text.splitOn '.' with
  | [a, b, c, d] => do
    let a ← octet? a
    let b ← octet? b
    let c ← octet? c
    let d ← octet? d
    some (.v4 a b c d)
  | _ => none

def hexDigit? (c : Char) : Option Nat :=
  if c.isDigit then some (c.toNat - 48)
  else if 'a' ≤ c ∧ c ≤ 'f' then some (c.toNat - 87)
  else if 'A' ≤ c ∧ c ≤ 'F' then some (c.toNat - 55)
  else none

def hextet? (part : List Char) : Option Nat :=
  if part = [] ∨ 4 < part.length then none
  else part.foldlM (fun value c => (hexDigit? c).map (16 * value + ·)) 0

/-- The parts of an address, where one in the notation of the fourth version
stands for two at the end. -/
def hextetParts? (parts : List (List Char)) : Option (List (List Char)) :=
  let last := parts.getLast?.getD []
  if '.' ∈ last then
    match v4? last with
    | some (.v4 a b c d) =>
      some (parts.dropLast ++ [Nat.toDigits 16 (a * 256 + b), Nat.toDigits 16 (c * 256 + d)])
    | _ => none
  else some parts

/-- The parts on one side of `::`, where an empty part at the end of the text is
allowed only next to it. -/
def sideParts? (outer : Option (List Char)) (side : List (List Char)) : Option (List (List Char)) :=
  if outer = some [] then if side.length = 1 then some [] else none else some side

def v6Value? (text : List Char) : Option Nat := do
  let parts := text.splitOn ':'
  if text = [] ∨ parts.length < 3 then none
  else
    let parts ← hextetParts? parts
    if 9 < parts.length then none
    else
      match (List.range parts.length).filter fun i => 1 ≤ i ∧ i + 1 < parts.length ∧ parts[i]? = some [] with
      | [] =>
        if parts.length = 8 then do
          let values ← parts.mapM hextet?
          some (values.foldl (65536 * · + ·) 0)
        else none
      | [skip] => do
        let high := parts.take skip
        let low := parts.drop (skip + 1)
        let high ← sideParts? high.head? high
        let low ← sideParts? low.getLast? low
        if 8 ≤ high.length + low.length then none
        else do
          let highValues ← high.mapM hextet?
          let lowValues ← low.mapM hextet?
          let zeros := List.replicate (8 - (high.length + low.length)) 0
          some ((highValues ++ zeros ++ lowValues).foldl (65536 * · + ·) 0)
      | _ => none

def v6? (text : List Char) : Option Address :=
  if '/' ∈ text then none
  else
    match text.dropWhile (· ≠ '%') with
    | [] => (v6Value? text).map fun value => .v6 value none
    | _ :: scope =>
      if scope = [] ∨ '%' ∈ scope then none
      else (v6Value? (text.takeWhile (· ≠ '%'))).map fun value => .v6 value (some scope)

/-- `ip_address(text)`. -/
def address? (text : List Char) : Option Address :=
  (v4? text).or (v6? text)

/-- `ip_address(value)`. -/
def Address.ofInt? (value : Int) : Option Address :=
  let number := value.toNat
  if value < 0 ∨ 2 ^ 128 ≤ number then none
  else if number < 2 ^ 32 then
    some (.v4 (.ofNat 256 (number / 2 ^ 24)) (.ofNat 256 (number / 2 ^ 16)) (.ofNat 256 (number / 2 ^ 8))
      (.ofNat 256 number))
  else some (.v6 number none)

def Address.isLoopback : Address → Bool
  | .v4 a _ _ _ => a = 127
  | .v6 value _ => value = 1

/-- The first longest run of at least two zeros, with its length. -/
def zeroRun (hextets : List Nat) : Option (Nat × Nat) :=
  let runs := (List.range hextets.length).map fun i => (i, ((hextets.drop i).takeWhile (· == 0)).length)
  runs.foldl (fun best run => if 2 ≤ run.2 ∧ best.all (·.2 < run.2) then some run else best) none

def v6Text (value : Nat) : List Char :=
  let hextets := (List.range 8).map fun i => value / 65536 ^ (7 - i) % 65536
  let text (part : List Nat) := [':'].intercalate (part.map (Nat.toDigits 16))
  match zeroRun hextets with
  | some (start, length) => text (hextets.take start) ++ [':', ':'] ++ text (hextets.drop (start + length))
  | none => text hextets

/-- `str(address)`. -/
def Address.text : Address → List Char
  | .v4 a b c d => ['.'].intercalate ([a, b, c, d].map fun octet => Nat.toDigits 10 octet)
  | .v6 value none => v6Text value
  | .v6 value (some scope) => v6Text value ++ '%' :: scope

theorem digits?_toDigits (n : Nat) : digits? (Nat.toDigits 10 n) = some (Nat.toDigits 10 n) := by
  have whole : (Nat.toDigits 10 n).splitOn '_' = [Nat.toDigits 10 n] :=
    splitOn_eq_singleton Nat.underscore_not_in_toDigits
  have numeric : (Nat.toDigits 10 n).all Char.isDigit = true :=
    List.all_eq_true.mpr fun _ here => Nat.isDigit_of_mem_toDigits (by decide) (by decide) here
  simp [digits?, whole, numeric]

variable {c : Char}

theorem isDigit_ascii (digit : c.isDigit = true) : c.toNat < 127 ∧ isSpace c = false ∧ c ≠ '+' ∧ c ≠ '-' := by
  have range : 48 ≤ c.toNat ∧ c.toNat ≤ 57 := by
    rw [Char.isDigit, Bool.and_eq_true, decide_eq_true_eq, decide_eq_true_eq] at digit
    exact ⟨UInt32.le_iff_toNat_le.mp digit.1, UInt32.le_iff_toNat_le.mp digit.2⟩
  have apart (other : Char) (outside : other.toNat < 48) : c ≠ other := fun same => by
    rw [same] at range
    exact absurd range.1 (Nat.not_le.mpr outside)
  refine ⟨by omega, ?_, apart _ (by decide), apart _ (by decide)⟩
  simp only [isSpace, mem_cons, not_mem_nil, or_false, decide_eq_false_iff_not, not_or]
  exact ⟨apart _ (by decide), apart _ (by decide), apart _ (by decide), apart _ (by decide), apart _ (by decide),
    apart _ (by decide)⟩

theorem int?_toDigits (numerals : Numerals) {n : Nat} (short : (Nat.toDigits 10 n).length ≤ 4300) :
    int? numerals (Nat.toDigits 10 n) = some (n : Int) := by
  have digit (c : Char) (here : c ∈ Nat.toDigits 10 n) : c.isDigit = true :=
    Nat.isDigit_of_mem_toDigits (by decide) (by decide) here
  have plain : (Nat.toDigits 10 n).map numerals.ascii = Nat.toDigits 10 n := by
    conv_rhs => rw [← map_id (Nat.toDigits 10 n)]
    exact map_congr_left fun c here => numerals.ascii_of_lt c (isDigit_ascii (digit c here)).1
  have notSpace (c : Char) (here : c ∈ Nat.toDigits 10 n) : isSpace c = false := (isDigit_ascii (digit c here)).2.1
  obtain ⟨first, rest, shape⟩ := exists_cons_of_ne_nil (Nat.toDigits_ne_nil (n := n) (b := 10))
  have head : (Nat.toDigits 10 n).dropWhile isSpace = Nat.toDigits 10 n := by
    rw [shape, dropWhile_cons_of_neg]
    rw [notSpace first (shape ▸ mem_cons_self)]
    decide
  have last : (Nat.toDigits 10 n).rdropWhile isSpace = Nat.toDigits 10 n := by
    rw [rdropWhile_eq_self_iff]
    intro nonempty
    rw [notSpace _ (getLast_mem nonempty)]
    decide
  have signless := isDigit_ascii (digit first (shape ▸ mem_cons_self))
  have bare : unsigned (Nat.toDigits 10 n) = (false, Nat.toDigits 10 n) := by
    rw [shape]
    unfold unsigned
    split
    · rename_i same
      exact absurd (List.cons.inj same).1 signless.2.2.1
    · rename_i same
      exact absurd (List.cons.inj same).1 signless.2.2.2
    · rfl
  simp only [int?, plain, head, last, bare, digits?_toDigits, if_neg (Nat.not_lt.mpr short),
    Nat.ofDigitChars_ten_toDigits, if_neg Bool.false_ne_true]

theorem octet?_toDigits : ∀ octet : Fin 256, octet? (Nat.toDigits 10 octet) = some octet := by
  decide +kernel

theorem octet?_isDigit {part : List Char} {octet : Fin 256} (parsed : octet? part = some octet) :
    part.all Char.isDigit = true := by
  unfold octet? at parsed
  split at parsed
  · cases parsed
  · rename_i formed
    rw [not_or, not_or, not_not] at formed
    exact formed.2.1

variable {text : List Char} {address : Address}

theorem v4?_cases (parsed : v4? text = some address) :
    ∃ a b c d, address = .v4 a b c d ∧ ∀ part ∈ text.splitOn '.', part.all Char.isDigit = true := by
  unfold v4? at parsed
  split at parsed
  · rename_i p q r s parts
    obtain ⟨a, first, parsed⟩ := Option.bind_eq_some_iff.mp parsed
    obtain ⟨b, second, parsed⟩ := Option.bind_eq_some_iff.mp parsed
    obtain ⟨c, third, parsed⟩ := Option.bind_eq_some_iff.mp parsed
    obtain ⟨d, fourth, parsed⟩ := Option.bind_eq_some_iff.mp parsed
    refine ⟨a, b, c, d, (Option.some.inj parsed).symm, fun part here => ?_⟩
    rw [parts] at here
    simp only [mem_cons, not_mem_nil, or_false] at here
    rcases here with rfl | rfl | rfl | rfl
    · exact octet?_isDigit first
    · exact octet?_isDigit second
    · exact octet?_isDigit third
    · exact octet?_isDigit fourth
  · cases parsed

theorem mem_intercalate {separator : Char} {parts : List (List Char)} (here : c ∈ [separator].intercalate parts) :
    c = separator ∨ ∃ part ∈ parts, c ∈ part := by
  induction parts with
  | nil => cases here
  | cons part rest ih =>
    cases rest with
    | nil => exact .inr ⟨part, mem_cons_self, by simpa using here⟩
    | cons next later =>
      rw [intercalate_cons_cons] at here
      rcases List.mem_append.mp here with front | back
      · rcases List.mem_append.mp front with inside | same
        · exact .inr ⟨part, mem_cons_self, inside⟩
        · exact .inl (List.mem_singleton.mp same)
      · rcases ih back with same | ⟨other, listed, inside⟩
        · exact .inl same
        · exact .inr ⟨other, mem_cons_of_mem _ listed, inside⟩

theorem v4?_chars (parsed : v4? text = some address) (here : c ∈ text) : c = '.' ∨ c.isDigit = true := by
  obtain ⟨-, -, -, -, -, digits⟩ := v4?_cases parsed
  have whole : ['.'].intercalate (text.splitOn '.') = text := intercalate_splitOn '.'
  rw [← whole] at here
  rcases mem_intercalate here with same | ⟨part, listed, inside⟩
  · exact .inl same
  · exact .inr (List.all_eq_true.mp (digits part listed) c inside)

theorem v4?_colon (colon : ':' ∈ text) : v4? text = none := by
  cases parsed : v4? text with
  | none => rfl
  | some address =>
    rcases v4?_chars parsed colon with same | digit
    · exact absurd same (by decide)
    · exact absurd digit (by decide)

theorem v4?_text (a b c d : Fin 256) : v4? (Address.v4 a b c d).text = some (.v4 a b c d) := by
  have parts : (Address.v4 a b c d).text.splitOn '.' = [a, b, c, d].map fun octet => Nat.toDigits 10 octet := by
    refine splitOn_intercalate '.' (fun part listed dot => ?_) (by simp)
    obtain ⟨octet, -, rfl⟩ := List.mem_map.mp listed
    exact absurd (Nat.isDigit_of_mem_toDigits (by decide) (by decide) dot) (by decide)
  simp [v4?, parts, octet?_toDigits]

theorem colon_of_v6Value? {value : Nat} (parsed : v6Value? text = some value) : ':' ∈ text := by
  by_contra absent
  have whole : text.splitOn ':' = [text] := splitOn_eq_singleton absent
  simp [v6Value?, whole] at parsed

theorem v6?_cases (parsed : v6? text = some address) : ':' ∈ text ∧ ∃ value scope, address = .v6 value scope ∧
      ∀ name ∈ scope, name ≠ [] ∧ '%' ∉ name ∧ '/' ∉ name ∧ name ⊆ text := by
  unfold v6? at parsed
  split at parsed
  · cases parsed
  · rename_i slashless
    split at parsed
    · obtain ⟨value, read, rfl⟩ := Option.map_eq_some_iff.mp parsed
      refine ⟨colon_of_v6Value? read, value, none, rfl, ?_⟩
      rintro name ⟨⟩
    · rename_i percent scope back
      split at parsed
      · cases parsed
      · rename_i formed
        obtain ⟨value, read, rfl⟩ := Option.map_eq_some_iff.mp parsed
        have inside : scope ⊆ text := fun c here =>
          (dropWhile_suffix _).subset (back ▸ mem_cons_of_mem percent here)
        rw [not_or] at formed
        refine ⟨( takeWhile_prefix _).subset (colon_of_v6Value? read), value, some scope, rfl, ?_⟩
        rintro name ⟨⟩
        exact ⟨formed.1, formed.2, fun slash => slashless (inside slash), inside⟩

theorem v6Text_one : v6Text 1 = [':', ':', '1'] := by
  decide +kernel

theorem v6Value?_one : v6Value? [':', ':', '1'] = some 1 := by
  decide +kernel

theorem v6?_text {scope : Option (List Char)} (formed : ∀ name ∈ scope, name ≠ [] ∧ '%' ∉ name ∧ '/' ∉ name) :
    v6? (Address.v6 1 scope).text = some (.v6 1 scope) := by
  cases scope with
  | none =>
    rw [Address.text, v6Text_one]
    decide +kernel
  | some name =>
    obtain ⟨nonempty, single, slashless⟩ := formed name rfl
    rw [Address.text, v6Text_one]
    have back : ([':', ':', '1'] ++ '%' :: name).dropWhile (· ≠ '%') = '%' :: name := rfl
    have front : ([':', ':', '1'] ++ '%' :: name).takeWhile (· ≠ '%') = [':', ':', '1'] := rfl
    have noSlash : '/' ∉ [':', ':', '1'] ++ '%' :: name := by simp [slashless]
    have known : ¬ (name = [] ∨ '%' ∈ name) := not_or.mpr ⟨nonempty, single⟩
    rw [v6?, if_neg noSlash, back, front]
    simp only [if_neg known, v6Value?_one, Option.map_some]

theorem address?_text (parsed : address? text = some address) (loopback : address.isLoopback = true) :
    address? address.text = some address ∧ ((∀ c ∈ address.text, c = '.' ∨ c.isDigit = true) ∨
        ':' ∈ text ∧ ':' ∈ address.text ∧ (']' ∈ address.text → ']' ∈ text)) := by
  rcases Option.or_eq_some_iff.mp parsed with four | ⟨-, six⟩
  · obtain ⟨a, b, c, d, rfl, -⟩ := v4?_cases four
    have again := v4?_text a b c d
    exact ⟨by rw [address?, again]; rfl, .inl fun _ here => v4?_chars again here⟩
  · obtain ⟨colon, value, scope, rfl, formed⟩ := v6?_cases six
    have one : value = 1 := by simpa [Address.isLoopback] using loopback
    subst one
    have again : v6? (Address.v6 1 scope).text = some (.v6 1 scope) := v6?_text fun name here =>
      ⟨(formed name here).1, (formed name here).2.1, (formed name here).2.2.1⟩
    have written := (v6?_cases again).1
    refine ⟨by rw [address?, v4?_colon written, again]; rfl, .inr ⟨colon, written, fun here => ?_⟩⟩
    cases scope with
    | none =>
      rw [Address.text, v6Text_one] at here
      exact absurd here (by decide)
    | some name =>
      rw [Address.text, v6Text_one] at here
      rcases List.mem_append.mp here with front | back
      · exact absurd front (by decide)
      · rcases List.mem_cons.mp back with same | inside
        · exact absurd same (by decide)
        · exact (formed name rfl).2.2.2 inside

end Literals
