import Mathlib.Data.List.Basic
import Mathlib.Data.List.TakeWhile
import Mathlib.Tactic.Common
import Mathlib.Tactic.FinCases

/-! # JSON as Python's `json.loads` reads it

A text of Python is the list of its characters, a string in JSON the list of its
code points, which may be single surrogates.
-/

namespace SnipeIt.Support

inductive Json where
  | null
  | bool (b : Bool)
  | int (n : ℤ)
  /-- A number with a fraction or an exponent, as it is written. -/
  | float (literal : List Char)
  | string (codes : List ℕ)
  | array (elements : List Json)
  | object (members : List (List ℕ × Json))

namespace Json

def codes (text : List Char) : List ℕ := text.map Char.toNat

/-- The value of a key of an object; the last of equal keys counts. -/
def get? (key : List ℕ) : Json → Option Json
  | object members => (members.reverse.find? fun m => m.1 = key).map Prod.snd
  | _ => none

def isBlank (c : Char) : Bool := c = ' ' || c = '\t' || c = '\n' || c = '\r'

def skipBlank (s : List Char) : List Char := s.dropWhile isBlank

def hexValue (c : Char) : Option ℕ :=
  if c.isDigit then some (c.toNat - 48)
  else if 'a' ≤ c ∧ c ≤ 'f' then some (c.toNat - 87)
  else if 'A' ≤ c ∧ c ≤ 'F' then some (c.toNat - 55)
  else none

def codeUnit (a b c d : Char) : Option ℕ := do
  let a ← hexValue a
  let b ← hexValue b
  let c ← hexValue c
  let d ← hexValue d
  return 4096 * a + 256 * b + 16 * c + d

def escapeValue : Char → Option ℕ
  | '"' => some 34
  | '\\' => some 92
  | '/' => some 47
  | 'b' => some 8
  | 'f' => some 12
  | 'n' => some 10
  | 'r' => some 13
  | 't' => some 9
  | _ => none

/-- The characters and code units up to the closing quote, and what follows it. Control characters
are not allowed. -/
def scanString : List Char → Option (List ℕ × List Char)
  | [] => none
  | '"' :: s => some ([], s)
  | '\\' :: 'u' :: a :: b :: c :: d :: s =>
    (codeUnit a b c d).bind fun unit =>
      (scanString s).map fun (units, rest) => (unit :: units, rest)
  | '\\' :: e :: s =>
    (escapeValue e).bind fun value =>
      (scanString s).map fun (units, rest) => (value :: units, rest)
  | c :: s =>
    if c.toNat < 32 then none
    else (scanString s).map fun (units, rest) => (c.toNat :: units, rest)

/-- A high and a low surrogate are one code point. -/
def joinSurrogates : List ℕ → List ℕ
  | high :: low :: units =>
    if 0xd800 ≤ high ∧ high < 0xdc00 ∧ 0xdc00 ≤ low ∧ low < 0xe000 then
      (0x10000 + 1024 * (high - 0xd800) + (low - 0xdc00)) :: joinSurrogates units
    else high :: joinSurrogates (low :: units)
  | units => units

/-- The part before the point, without leading zeros. -/
def scanInt : List Char → Option (List Char × List Char)
  | '0' :: s => some (['0'], s)
  | s =>
    if s.takeWhile Char.isDigit = [] then none
    else some (s.takeWhile Char.isDigit, s.dropWhile Char.isDigit)

def scanFrac : List Char → List Char × List Char
  | '.' :: s =>
    if s.takeWhile Char.isDigit = [] then ([], '.' :: s)
    else ('.' :: s.takeWhile Char.isDigit, s.dropWhile Char.isDigit)
  | s => ([], s)

def scanSign : List Char → List Char × List Char
  | '+' :: s => (['+'], s)
  | '-' :: s => (['-'], s)
  | s => ([], s)

def scanExp : List Char → List Char × List Char
  | [] => ([], [])
  | e :: s =>
    if (e = 'e' ∨ e = 'E') ∧ (scanSign s).2.takeWhile Char.isDigit ≠ [] then
      (e :: (scanSign s).1 ++ (scanSign s).2.takeWhile Char.isDigit,
        (scanSign s).2.dropWhile Char.isDigit)
    else ([], e :: s)

def scanMinus : List Char → List Char × List Char
  | '-' :: s => (['-'], s)
  | s => ([], s)

def scanNumber (s : List Char) : Option (Json × List Char) := do
  let (minus, s) := scanMinus s
  let (whole, s) ← scanInt s
  let (frac, s) := scanFrac s
  let (exp, s) := scanExp s
  if frac = [] ∧ exp = [] then
    let n : ℤ := Nat.ofDigitChars 10 whole 0
    return (.int (if minus = [] then n else -n), s)
  else return (.float (minus ++ whole ++ frac ++ exp), s)

/-! ## Values -/

def literals : List (List Char × Json) :=
  [("null".toList, .null), ("true".toList, .bool true), ("false".toList, .bool false),
    ("NaN".toList, .float "NaN".toList), ("Infinity".toList, .float "Infinity".toList),
    ("-Infinity".toList, .float "-Infinity".toList)]

def scanLiteral (s : List Char) : Option (Json × List Char) :=
  literals.findSome? fun (text, value) =>
    if text.isPrefixOf s then some (value, s.drop text.length) else none

def scanKey : List Char → Option (List ℕ × List Char)
  | '"' :: s => do
    let (units, s) ← scanString s
    match skipBlank s with
    | ':' :: s => some (joinSurrogates units, skipBlank s)
    | _ => none
  | _ => none

mutual

/-- A value and what follows it. The fuel is for calls one inside the other; no text of JSON has
more of these than characters. -/
def parseValue : ℕ → List Char → Option (Json × List Char)
  | 0, _ => none
  | fuel + 1, s =>
    match s with
    | '"' :: s => (scanString s).map fun (units, rest) => (.string (joinSurrogates units), rest)
    | '{' :: s =>
      match skipBlank s with
      | '}' :: s => some (.object [], s)
      | s => (parseMembers fuel s).map fun (members, rest) => (.object members, rest)
    | '[' :: s =>
      match skipBlank s with
      | ']' :: s => some (.array [], s)
      | s => (parseElements fuel s).map fun (elements, rest) => (.array elements, rest)
    | s => (scanLiteral s).or (scanNumber s)

def parseMembers : ℕ → List Char → Option (List (List ℕ × Json) × List Char)
  | 0, _ => none
  | fuel + 1, s => do
    let (key, s) ← scanKey s
    let (value, s) ← parseValue fuel s
    match skipBlank s with
    | ',' :: s => do
      let (members, rest) ← parseMembers fuel (skipBlank s)
      return ((key, value) :: members, rest)
    | '}' :: s => return ([(key, value)], s)
    | _ => none

def parseElements : ℕ → List Char → Option (List Json × List Char)
  | 0, _ => none
  | fuel + 1, s => do
    let (value, s) ← parseValue fuel s
    match skipBlank s with
    | ',' :: s => do
      let (elements, rest) ← parseElements fuel (skipBlank s)
      return (value :: elements, rest)
    | ']' :: s => return ([value], s)
    | _ => none

end

def loads (text : List Char) : Option Json :=
  match parseValue (text.length + 1) (skipBlank text) with
  | some (value, rest) => if skipBlank rest = [] then some value else none
  | none => none

/-! ## Reading strings -/

theorem length_joinSurrogates (units : List ℕ) : (joinSurrogates units).length ≤ units.length := by
  fun_induction joinSurrogates units with
  | case1 high low units h ih => simp only [List.length_cons]; omega
  | case2 high low units h ih => simp only [List.length_cons] at ih ⊢; omega
  | case3 units h => exact le_rfl

theorem joinSurrogates_codes (text : List Char) : joinSurrogates (codes text) = codes text := by
  have hvalid (c : Char) : ¬ (0xd800 ≤ c.toNat ∧ c.toNat < 0xdc00) := by
    have hc := c.valid
    simp only [UInt32.isValidChar, Nat.isValidChar] at hc
    change ¬ (0xd800 ≤ c.val.toNat ∧ c.val.toNat < 0xdc00)
    omega
  induction text with
  | nil => rfl
  | cons c text ih =>
    cases text with
    | nil => rfl
    | cons d text =>
      change joinSurrogates (c.toNat :: d.toNat :: codes text) = c.toNat :: d.toNat :: codes text
      rw [joinSurrogates, if_neg fun h => hvalid c ⟨h.1, h.2.1⟩]
      exact congrArg (c.toNat :: ·) ih

/-- What stands for itself in a string. -/
def IsPlain (c : Char) : Prop := c ≠ '"' ∧ c ≠ '\\' ∧ 32 ≤ c.toNat

instance (c : Char) : Decidable (IsPlain c) := inferInstanceAs (Decidable (_ ∧ _))

def PlainText (text : List Char) : Prop := ∀ c ∈ text, IsPlain c

instance (text : List Char) : Decidable (PlainText text) :=
  show Decidable (∀ c ∈ text, IsPlain c) from List.decidableBAll _ text

theorem scanString_cons {c : Char} (s : List Char) (h : IsPlain c) :
    scanString (c :: s) = (scanString s).map fun (units, rest) => (c.toNat :: units, rest) := by
  obtain ⟨hquote, hback, hcontrol⟩ := h
  rw [scanString.eq_5 c s hquote (fun _ _ _ _ _ hc => absurd hc hback)
    (fun _ _ hc => absurd hc hback), if_neg (Nat.not_lt.mpr hcontrol)]

theorem scanString_plain {text rest : List Char} (h : PlainText text) :
    scanString (text ++ '"' :: rest) = some (codes text, rest) := by
  induction text with
  | nil => rfl
  | cons c text ih =>
    rw [List.cons_append, scanString_cons _ (h c List.mem_cons_self),
      ih fun d hd => h d (List.mem_cons_of_mem c hd)]
    rfl

theorem codeUnit_quote {a b c d : Char} (h : '"' ∈ [a, b, c, d]) : codeUnit a b c d = none := by
  have hquote : hexValue '"' = none := by decide
  simp only [List.mem_cons, List.not_mem_nil, or_false] at h
  rcases h with rfl | rfl | rfl | rfl <;> simp [codeUnit, hquote]

theorem scanString_unicode_short {s : List Char} (h : '"' ∈ s.take 4) :
    scanString ('\\' :: 'u' :: s) = none := by
  match s with
  | [] | [_] | [_, _] | [_, _, _] => rfl
  | a :: b :: c :: d :: s =>
    rw [scanString, codeUnit_quote h]
    rfl

theorem scanString_escape {e : Char} (s : List Char) (he : e ≠ 'u') :
    scanString ('\\' :: e :: s) = (escapeValue e).bind fun value =>
      (scanString s).map fun (units, rest) => (value :: units, rest) :=
  scanString.eq_4 e s fun _ _ _ _ _ heq => absurd heq he

/-- What is scanned of a string that is longer by one item. -/
theorem exists_of_scan_cons (unit : Option ℕ) {s rest : List Char} {units : List ℕ}
    (h : (unit.bind fun unit => (scanString s).map fun (units, rest) => (unit :: units, rest)) =
      some (units, rest)) :
    ∃ units', scanString s = some (units', rest) ∧ units.length = units'.length + 1 := by
  obtain ⟨unit, -, h⟩ := Option.bind_eq_some_iff.mp h
  obtain ⟨⟨units', rest'⟩, hscan, heq⟩ := Option.map_eq_some_iff.mp h
  cases heq
  exact ⟨units', hscan, rfl⟩

/-- How a string ends that is scanned up to a quote behind `text`: with this quote, and it is
shorter than `text` unless every character stands for itself; or the quote is escaped. -/
def Closes (text rest rest' : List Char) (units : List ℕ) : Prop :=
  (rest' = rest ∧ units.length ≤ text.length ∧ (PlainText text ∨ units.length < text.length)) ∨
  ∃ units', scanString rest = some (units', rest')

section

variable {text rest rest' : List Char} {units units' : List ℕ}

theorem Closes.escape (h : Closes text rest rest' units') (front : List Char)
    (hfront : 2 ≤ front.length) (hlen : units.length = units'.length + 1) :
    Closes (front ++ text) rest rest' units := by
  rcases h with ⟨hrest, hle, -⟩ | hescaped
  · have hlt : units.length < (front ++ text).length := by
      rw [List.length_append]
      omega
    exact .inl ⟨hrest, hlt.le, .inr hlt⟩
  · exact .inr hescaped

theorem Closes.plain {c : Char} (hc : IsPlain c) (h : Closes text rest rest' units) :
    Closes (c :: text) rest rest' (c.toNat :: units) := by
  rcases h with ⟨hrest, hle, hor⟩ | hescaped
  · refine .inl ⟨hrest, by simpa using hle, ?_⟩
    rcases hor with hall | hlt
    · exact .inl fun d hd => (List.mem_cons.mp hd).elim (fun heq => heq ▸ hc) (hall d)
    · exact .inr (by simpa using hlt)
  · exact .inr hescaped

theorem scanString_append (text : List Char) (h : '"' ∉ text)
    (hscan : scanString (text ++ '"' :: rest) = some (units, rest')) :
    Closes text rest rest' units := by
  fun_induction scanString text generalizing units with
  | case1 =>
    cases hscan
    exact .inl ⟨rfl, le_rfl, .inl fun _ h => nomatch h⟩
  | case2 s => exact absurd List.mem_cons_self h
  | case3 a b c d s ih =>
    simp only [List.mem_cons, not_or] at h
    obtain ⟨units', hscan', hlen⟩ := exists_of_scan_cons _ hscan
    have hcloses := ih h.2.2.2.2.2.2 hscan'
    exact hcloses.escape ['\\', 'u', a, b, c, d] (by simp) hlen
  | case4 e s hshort ih =>
    by_cases he : e = 'u'
    · -- Fewer than four digits and the quote.
      subst he
      have hquote : '"' ∈ (s ++ '"' :: rest).take 4 := by
        match s, hshort with
        | [], _ | [_], _ | [_, _], _ | [_, _, _], _ => simp
        | a :: b :: c :: d :: s, hshort => exact (hshort a b c d s rfl rfl).elim
      cases (scanString_unicode_short hquote).symm.trans hscan
    · rw [List.cons_append, List.cons_append, scanString_escape _ he] at hscan
      simp only [List.mem_cons, not_or] at h
      obtain ⟨units', hscan', hlen⟩ := exists_of_scan_cons _ hscan
      have hcloses := ih h.2.2 hscan'
      exact hcloses.escape ['\\', e] le_rfl hlen
  | case5 c s hquote hunicode hescape hcontrol =>
    have hback : c ≠ '\\' := by
      rintro rfl
      exact absurd hcontrol (by decide)
    rw [List.cons_append, scanString.eq_5 c _ hquote (fun _ _ _ _ _ hc => absurd hc hback)
      (fun _ _ hc => absurd hc hback), if_pos hcontrol] at hscan
    cases hscan
  | case6 c s hquote hunicode hescape hcontrol ih =>
    by_cases hback : c = '\\'
    · -- The backslash is the last character.
      subst hback
      cases s with
      | nil =>
        obtain ⟨units', hscan', -⟩ := exists_of_scan_cons (some 34) hscan
        exact .inr ⟨units', hscan'⟩
      | cons e s => exact (hescape e s rfl rfl).elim
    · have hplain : IsPlain c := ⟨hquote, hback, Nat.not_lt.mp hcontrol⟩
      rw [List.cons_append, scanString_cons _ hplain] at hscan
      obtain ⟨⟨units', rest''⟩, hscan', heq⟩ := Option.map_eq_some_iff.mp hscan
      cases heq
      exact (ih (fun hmem => h (List.mem_cons_of_mem c hmem)) hscan').plain hplain

end

/-! ## Reading numbers -/

theorem takeWhile_digits {digits : List Char} (rest : List Char) {c : Char}
    (h : ∀ d ∈ digits, d.isDigit) (hc : c.isDigit = false) :
    (digits ++ c :: rest).takeWhile Char.isDigit = digits ∧
      (digits ++ c :: rest).dropWhile Char.isDigit = c :: rest := by
  constructor
  · rw [List.takeWhile_append_of_pos h, List.takeWhile_cons_of_neg (by simp [hc]),
      List.append_nil]
  · rw [List.dropWhile_append_of_pos h, List.dropWhile_cons_of_neg (by simp [hc])]

theorem eq_zero_of_toDigits {n : ℕ} {digits : List Char} (h : Nat.toDigits 10 n = '0' :: digits) :
    n = 0 := by
  induction n using Nat.strong_induction_on generalizing digits with
  | _ n ih =>
    by_cases hn : n < 10
    · rw [Nat.toDigits_of_lt_base hn] at h
      have hzero : n.digitChar = '0' := (List.cons.inj h).1
      have hnat := Nat.toNat_digitChar_of_lt_ten hn
      rw [hzero] at hnat
      change 48 = 48 + n at hnat
      omega
    · rw [Nat.toDigits_of_base_le (by decide) (Nat.not_lt.mp hn)] at h
      obtain ⟨d, front, hfront⟩ :=
        List.exists_cons_of_ne_nil (Nat.toDigits_ne_nil (n := n / 10) (b := 10))
      rw [hfront, List.cons_append] at h
      have hzero : n / 10 = 0 :=
        ih (n / 10) (by omega) (hfront.trans (congrArg (· :: front) (List.cons.inj h).1))
      omega

theorem toDigits_eq_cons (n : ℕ) : ∃ d digits, Nat.toDigits 10 n = d :: digits ∧ d.isDigit := by
  obtain ⟨d, digits, heq⟩ := List.exists_cons_of_ne_nil (Nat.toDigits_ne_nil (n := n) (b := 10))
  have hd : d.isDigit :=
    Nat.isDigit_of_mem_toDigits (by decide) (by decide) (heq ▸ List.mem_cons_self)
  exact ⟨d, digits, heq, hd⟩

theorem scanInt_toDigits (n : ℕ) {c : Char} (rest : List Char) (hc : c.isDigit = false) :
    scanInt (Nat.toDigits 10 n ++ c :: rest) = some (Nat.toDigits 10 n, c :: rest) := by
  have hdigits : ∀ d ∈ Nat.toDigits 10 n, d.isDigit := fun d hd =>
    Nat.isDigit_of_mem_toDigits (by decide) (by decide) hd
  obtain ⟨htake, hdrop⟩ := takeWhile_digits rest hdigits hc
  obtain ⟨d, digits, heq, -⟩ := toDigits_eq_cons n
  by_cases hd : d = '0'
  · subst hd
    rw [eq_zero_of_toDigits heq, Nat.toDigits_zero]
    rfl
  · rw [heq] at htake hdrop ⊢
    rw [List.cons_append] at htake hdrop ⊢
    rw [scanInt.eq_2 _ fun _ hs => hd (List.cons.inj hs).1, htake, hdrop, if_neg (by simp)]

theorem scanMinus_toDigits (n : ℕ) (rest : List Char) :
    scanMinus (Nat.toDigits 10 n ++ rest) = ([], Nat.toDigits 10 n ++ rest) := by
  obtain ⟨d, digits, heq, hd⟩ := toDigits_eq_cons n
  rw [heq, List.cons_append]
  refine scanMinus.eq_2 _ fun _ hs => ?_
  rw [(List.cons.inj hs).1] at hd
  cases hd

/-- What may follow a number: nothing that goes on with it. -/
def EndsNumber (c : Char) : Prop := c.isDigit = false ∧ c ≠ '.' ∧ c ≠ 'e' ∧ c ≠ 'E'

theorem scanFrac_none {c : Char} (rest : List Char) (hc : EndsNumber c) :
    scanFrac (c :: rest) = ([], c :: rest) :=
  scanFrac.eq_2 _ fun _ hs => hc.2.1 (List.cons.inj hs).1

theorem scanExp_none {c : Char} (rest : List Char) (hc : EndsNumber c) :
    scanExp (c :: rest) = ([], c :: rest) := by
  rw [scanExp, if_neg fun h => h.1.elim hc.2.2.1 hc.2.2.2]

theorem scanFrac_digits {digits : List Char} (hne : digits ≠ []) (h : ∀ d ∈ digits, d.isDigit)
    {c : Char} (rest : List Char) (hc : EndsNumber c) :
    scanFrac ('.' :: (digits ++ c :: rest)) = ('.' :: digits, c :: rest) := by
  obtain ⟨htake, hdrop⟩ := takeWhile_digits rest h hc.1
  rw [scanFrac, htake, hdrop, if_neg hne]

def printInt (minus : Bool) (n : ℕ) : List Char :=
  (if minus then ['-'] else []) ++ Nat.toDigits 10 n

theorem scanMinus_printInt (minus : Bool) (n : ℕ) (rest : List Char) :
    scanMinus (printInt minus n ++ rest) =
      (if minus then ['-'] else [], Nat.toDigits 10 n ++ rest) := by
  cases minus with
  | true => rfl
  | false => exact scanMinus_toDigits n rest

theorem scanNumber_int (minus : Bool) (n : ℕ) {c : Char} (rest : List Char) (hc : EndsNumber c) :
    scanNumber (printInt minus n ++ c :: rest) =
      some (.int (if minus then -n else n), c :: rest) := by
  rw [scanNumber, scanMinus_printInt]
  simp only [scanInt_toDigits n rest hc.1, scanFrac_none rest hc, scanExp_none rest hc,
    Option.bind_eq_bind, Option.bind_some, Nat.ofDigitChars_ten_toDigits]
  cases minus <;> rfl

theorem scanNumber_frac (minus : Bool) (n : ℕ) {digits : List Char} (hne : digits ≠ [])
    (h : ∀ d ∈ digits, d.isDigit) {c : Char} (rest : List Char) (hc : EndsNumber c) :
    scanNumber (printInt minus n ++ '.' :: (digits ++ c :: rest)) =
      some (.float (printInt minus n ++ '.' :: digits), c :: rest) := by
  rw [scanNumber, scanMinus_printInt]
  simp only [scanInt_toDigits n (digits ++ c :: rest) (c := '.') (by decide),
    scanFrac_digits hne h rest hc, scanExp_none rest hc, Option.bind_eq_bind, Option.bind_some]
  cases minus <;> simp [printInt]

theorem printInt_eq_cons (minus : Bool) (n : ℕ) :
    ∃ c digits, printInt minus n = c :: digits ∧ (c = '-' ∧ (∃ d ds, digits = d :: ds ∧ d.isDigit) ∨
      c.isDigit) := by
  obtain ⟨d, digits, heq, hd⟩ := toDigits_eq_cons n
  cases minus with
  | true => exact ⟨'-', Nat.toDigits 10 n, rfl, .inl ⟨rfl, d, digits, heq, hd⟩⟩
  | false => exact ⟨d, digits, heq, .inr hd⟩

theorem scanLiteral_printInt (minus : Bool) (n : ℕ) (rest : List Char) :
    scanLiteral (printInt minus n ++ rest) = none := by
  obtain ⟨c, digits, heq, hc⟩ := printInt_eq_cons minus n
  rw [heq, List.cons_append]
  rcases hc with ⟨rfl, d, ds, rfl, hd⟩ | hc
  · have hne : 'I' ≠ d := by
      rintro rfl
      cases hd
    simp [scanLiteral, literals, hne]
  · have hne : ∀ e ∈ ['n', 't', 'f', 'N', 'I', '-'], e ≠ c := by
      rintro e he rfl
      fin_cases he <;> cases hc
    simp only [List.mem_cons, List.not_mem_nil, or_false, forall_eq_or_imp, forall_eq] at hne
    simp [scanLiteral, literals, hne]

theorem parseValue_printInt (fuel : ℕ) (minus : Bool) (n : ℕ) (rest : List Char) :
    parseValue (fuel + 1) (printInt minus n ++ rest) = scanNumber (printInt minus n ++ rest) := by
  have hliteral := scanLiteral_printInt minus n rest
  obtain ⟨c, digits, heq, hc⟩ := printInt_eq_cons minus n
  rw [heq, List.cons_append] at hliteral ⊢
  have hne : ∀ e ∈ ['"', '\x7b', '['], e ≠ c := by
    rintro e he rfl
    rcases hc with ⟨hc, -⟩ | hc
    · subst hc
      exact absurd he (by decide)
    · fin_cases he <;> cases hc
  simp only [List.mem_cons, List.not_mem_nil, or_false, forall_eq_or_imp, forall_eq] at hne
  rw [parseValue]
  · rw [hliteral, Option.none_or]
  · exact fun _ h => hne.1 (List.cons.inj h).1.symm
  · exact fun _ h => hne.2.1 (List.cons.inj h).1.symm
  · exact fun _ h => hne.2.2 (List.cons.inj h).1.symm

theorem skipBlank_printInt (minus : Bool) (n : ℕ) (rest : List Char) :
    skipBlank (printInt minus n ++ rest) = printInt minus n ++ rest := by
  obtain ⟨c, digits, heq, hc⟩ := printInt_eq_cons minus n
  rw [heq, List.cons_append]
  have hblank : isBlank c = false := by
    rcases hc with ⟨rfl, -⟩ | hc
    · rfl
    · have hne : ∀ e ∈ [' ', '\t', '\n', '\r'], c ≠ e := by
        rintro e he rfl
        fin_cases he <;> cases hc
      simpa [isBlank, and_assoc] using hne
  exact List.dropWhile_cons_of_neg (by simp [hblank])

theorem scanKey_plain {key : List Char} (s : List Char) (h : PlainText key) :
    scanKey ('"' :: (key ++ '"' :: ':' :: s)) = some (codes key, skipBlank s) := by
  have hcolon : skipBlank (':' :: s) = ':' :: s := rfl
  rw [scanKey, scanString_plain h]
  simp only [Option.bind_eq_bind, Option.bind_some, hcolon, joinSurrogates_codes]

section

variable {fuel : ℕ} {key s rest : List Char} {value : Json}

theorem parseMembers_comma (hkey : PlainText key) (hs : skipBlank s = s)
    (hvalue : parseValue fuel s = some (value, ',' :: '"' :: rest)) :
    parseMembers (fuel + 1) ('"' :: (key ++ '"' :: ':' :: s)) =
      (parseMembers fuel ('"' :: rest)).map fun (members, rest) =>
        ((codes key, value) :: members, rest) := by
  have hcomma : skipBlank (',' :: '"' :: rest) = ',' :: '"' :: rest := rfl
  have hquote : skipBlank ('"' :: rest) = '"' :: rest := rfl
  rw [parseMembers, scanKey_plain s hkey, hs]
  simp only [Option.bind_eq_bind, Option.bind_some, hvalue, hcomma, hquote]
  cases parseMembers fuel ('"' :: rest) <;> rfl

theorem parseMembers_last (hkey : PlainText key) (hs : skipBlank s = s)
    (hvalue : parseValue fuel s = some (value, '\x7d' :: rest)) :
    parseMembers (fuel + 1) ('"' :: (key ++ '"' :: ':' :: s)) =
      some ([(codes key, value)], rest) := by
  have hbrace : skipBlank ('\x7d' :: rest) = '\x7d' :: rest := rfl
  rw [parseMembers, scanKey_plain s hkey, hs]
  simp only [Option.bind_eq_bind, Option.bind_some, hvalue, hbrace, Option.pure_def]

theorem parseMembers_none (hkey : PlainText key) (hs : skipBlank s = s)
    (hvalue : parseValue fuel s = none) :
    parseMembers (fuel + 1) ('"' :: (key ++ '"' :: ':' :: s)) = none := by
  rw [parseMembers, scanKey_plain s hkey, hs]
  simp only [Option.bind_eq_bind, Option.bind_some, hvalue, Option.bind_none]

theorem parseMembers_stray (hkey : PlainText key) (hs : skipBlank s = s) {c : Char}
    (hvalue : parseValue fuel s = some (value, c :: rest)) (hblank : isBlank c = false)
    (hcomma : c ≠ ',') (hbrace : c ≠ '\x7d') :
    parseMembers (fuel + 1) ('"' :: (key ++ '"' :: ':' :: s)) = none := by
  have hskip : skipBlank (c :: rest) = c :: rest := List.dropWhile_cons_of_neg (by simp [hblank])
  rw [parseMembers, scanKey_plain s hkey, hs]
  simp only [Option.bind_eq_bind, Option.bind_some, hvalue, hskip]
  split
  · next h => exact absurd (List.cons.inj h).1 hcomma
  · next h => exact absurd (List.cons.inj h).1 hbrace
  · rfl

end

end Json
end SnipeIt.Support
