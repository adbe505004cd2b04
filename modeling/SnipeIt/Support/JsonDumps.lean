import Mathlib.Data.List.Chain
import SnipeIt.Support.JsonText

/-! # JSON as Python's `json.dumps` writes it

Without blanks and in ASCII: what is not printable is escaped in strings, beyond
the first plane as two surrogates. Every value that is written is read again.
-/

namespace SnipeIt.Support
namespace Json
open Utf8

/-! ## Writing -/

def hexDigit (n : ℕ) : Char := (n % 16).digitChar

def escapeUnit (unit : ℕ) : List Char :=
  ['\\', 'u', hexDigit (unit / 4096), hexDigit (unit / 256), hexDigit (unit / 16), hexDigit unit]

def codeUnits (code : ℕ) : List ℕ :=
  if code < 0x10000 then [code]
  else [0xd800 + (code - 0x10000) / 1024, 0xdc00 + (code - 0x10000) % 1024]

/-- `py_encode_basestring_ascii` for one character. -/
def escapeCode (code : ℕ) : List Char :=
  if code = 92 then ['\\', '\\']
  else if code = 34 then ['\\', '"']
  else if code = 8 then ['\\', 'b']
  else if code = 12 then ['\\', 'f']
  else if code = 10 then ['\\', 'n']
  else if code = 13 then ['\\', 'r']
  else if code = 9 then ['\\', 't']
  else if 32 ≤ code ∧ code < 127 then [Char.ofNat code]
  else (codeUnits code).flatMap escapeUnit

def dumpString (codes : List ℕ) : List Char := '"' :: (codes.flatMap escapeCode ++ ['"'])

mutual

/-- `json.dumps` with the separators `(',', ':')`. A number with a fraction is written as it is
given. -/
def dumps : Json → List Char
  | .null => "null".toList
  | .bool b => (if b then "true" else "false").toList
  | .int n => printInt (n < 0) n.natAbs
  | .float literal => literal
  | .string codes => dumpString codes
  | .array elements => '[' :: dumpElements elements
  | .object members => '\x7b' :: dumpMembers members

/-- Elements with commas between them, and the closing bracket. -/
def dumpElements : List Json → List Char
  | [] => [']']
  | [value] => dumps value ++ [']']
  | value :: next :: elements => dumps value ++ ',' :: dumpElements (next :: elements)

/-- Members with commas between them, and the closing brace. -/
def dumpMembers : List (List ℕ × Json) → List Char
  | [] => ['\x7d']
  | [member] => dumpMember member ++ ['\x7d']
  | member :: next :: members => dumpMember member ++ ',' :: dumpMembers (next :: members)

def dumpMember : List ℕ × Json → List Char
  | (key, value) => dumpString key ++ ':' :: dumps value

end

/-- A text: no high surrogate stands before a low one. -/
structure IsText (codes : List ℕ) : Prop where
  lt : ∀ code ∈ codes, code < 0x110000
  unpaired : codes.IsChain fun a b => ¬ (0xd800 ≤ a ∧ a < 0xdc00 ∧ 0xdc00 ≤ b ∧ b < 0xe000)

/-- A number with a point and without an exponent. -/
def IsPointed (literal : List Char) : Prop :=
  ∃ minus n digits, digits ≠ [] ∧ (∀ d ∈ digits, d.isDigit) ∧
    literal = printInt minus n ++ '.' :: digits

inductive Dumpable : Json → Prop
  | null : Dumpable .null
  | bool (b : Bool) : Dumpable (.bool b)
  | int (n : ℤ) : Dumpable (.int n)
  | float {literal : List Char} (h : IsPointed literal) : Dumpable (.float literal)
  | string {codes : List ℕ} (h : IsText codes) : Dumpable (.string codes)
  | array {elements : List Json} (h : ∀ value ∈ elements, Dumpable value) :
    Dumpable (.array elements)
  | object {members : List (List ℕ × Json)} (hkey : ∀ m ∈ members, IsText m.1)
    (h : ∀ m ∈ members, Dumpable m.2) : Dumpable (.object members)

theorem dumpString_codes {text : List Char} (h : ∀ c ∈ text, IsPlain c ∧ c.toNat < 127) :
    dumpString (codes text) = '"' :: (text ++ ['"']) := by
  have hcodes : (codes text).flatMap escapeCode = text := by
    induction text with
    | nil => rfl
    | cons c text ih =>
      obtain ⟨⟨hquote, hback, hle⟩, hlt⟩ := h c List.mem_cons_self
      have hne {d : Char} (hd : c ≠ d) : c.toNat ≠ d.toNat := fun heq =>
        hd (Char.toNat_inj.mp heq)
      have h92 : c.toNat ≠ 92 := hne hback
      have h34 : c.toNat ≠ 34 := hne hquote
      have hchar : escapeCode c.toNat = [c] := by
        rw [escapeCode, if_neg h92, if_neg h34, if_neg (by omega), if_neg (by omega),
          if_neg (by omega), if_neg (by omega), if_neg (by omega), if_pos ⟨hle, hlt⟩,
          Char.ofNat_toNat]
      have hrest := ih fun d hd => h d (List.mem_cons_of_mem c hd)
      rw [codes, List.map_cons, List.flatMap_cons, hchar, List.singleton_append]
      exact congrArg (c :: ·) hrest
  rw [dumpString, hcodes]

/-! ## Reading strings -/

theorem hexValue_hexDigit (n : ℕ) : hexValue (hexDigit n) = some (n % 16) := by
  have hall : ∀ d < 16, hexValue d.digitChar = some d := by decide
  exact hall (n % 16) (Nat.mod_lt n (by decide))

theorem codeUnit_hexDigits {unit : ℕ} (h : unit < 0x10000) :
    codeUnit (hexDigit (unit / 4096)) (hexDigit (unit / 256)) (hexDigit (unit / 16))
      (hexDigit unit) = some unit := by
  simp only [codeUnit, hexValue_hexDigit, Option.bind_eq_bind, Option.bind_some, Option.pure_def,
    Option.some.injEq]
  omega

theorem scanString_escapeUnit {unit : ℕ} (h : unit < 0x10000) (rest : List Char) :
    scanString (escapeUnit unit ++ rest) =
      (scanString rest).map fun (units, rest) => (unit :: units, rest) := by
  simp only [escapeUnit, List.cons_append, List.nil_append]
  rw [scanString, codeUnit_hexDigits h, Option.bind_some]

theorem codeUnits_lt {code : ℕ} (h : code < 0x110000) :
    ∀ unit ∈ codeUnits code, unit < 0x10000 := by
  rw [codeUnits]
  split_ifs with hplane
  · simpa using hplane
  · simp only [List.mem_cons, List.not_mem_nil, or_false, forall_eq_or_imp, forall_eq]
    omega

theorem scanString_escapeUnits {units : List ℕ} (h : ∀ unit ∈ units, unit < 0x10000)
    (rest : List Char) : scanString (units.flatMap escapeUnit ++ rest) =
      (scanString rest).map fun (units', rest) => (units ++ units', rest) := by
  induction units with
  | nil => simp
  | cons unit units ih =>
    rw [List.flatMap_cons, List.append_assoc, scanString_escapeUnit (h unit List.mem_cons_self),
      ih fun u hu => h u (List.mem_cons_of_mem unit hu)]
    simp [Function.comp_def]

theorem toNat_ofNat_ascii {code : ℕ} (h : code < 128) : (Char.ofNat code).toNat = code := by
  have hall : ∀ n < 128, (Char.ofNat n).toNat = n := by decide
  exact hall code h

/-- A character that is written is scanned as its code units. -/
theorem scanString_escapeCode {code : ℕ} (h : code < 0x110000) (rest : List Char) :
    scanString (escapeCode code ++ rest) =
      (scanString rest).map fun (units, rest) => (codeUnits code ++ units, rest) := by
  rw [escapeCode]
  split_ifs with h92 h34 h8 h12 h10 h13 h9 hprint
  · subst h92
    exact scanString_escape rest (by decide)
  · subst h34
    exact scanString_escape rest (by decide)
  · subst h8
    exact scanString_escape rest (by decide)
  · subst h12
    exact scanString_escape rest (by decide)
  · subst h10
    exact scanString_escape rest (by decide)
  · subst h13
    exact scanString_escape rest (by decide)
  · subst h9
    exact scanString_escape rest (by decide)
  · have hnat := toNat_ofNat_ascii (show code < 128 by omega)
    have hplain : IsPlain (Char.ofNat code) := by
      refine ⟨?_, ?_, by omega⟩
      · rintro heq
        rw [heq] at hnat
        exact h34 hnat.symm
      · rintro heq
        rw [heq] at hnat
        exact h92 hnat.symm
    have hunits : codeUnits code = [code] := if_pos (by omega)
    rw [List.singleton_append, scanString_cons _ hplain, hnat, hunits]
    rfl
  · exact scanString_escapeUnits (codeUnits_lt h) rest

theorem scanString_escapeCodes {codes : List ℕ} (h : ∀ code ∈ codes, code < 0x110000)
    (rest : List Char) : scanString (codes.flatMap escapeCode ++ '"' :: rest) =
      some (codes.flatMap codeUnits, rest) := by
  induction codes with
  | nil => rfl
  | cons code codes ih =>
    rw [List.flatMap_cons, List.append_assoc, scanString_escapeCode (h code List.mem_cons_self),
      ih fun c hc => h c (List.mem_cons_of_mem code hc)]
    rfl

/-- The first code unit behind a code point that is not a surrogate before a partner. -/
theorem joinSurrogates_cons {code : ℕ} {codes : List ℕ} (h : IsText (code :: codes)) :
    joinSurrogates (code :: codes.flatMap codeUnits) =
      code :: joinSurrogates (codes.flatMap codeUnits) := by
  cases codes with
  | nil => rfl
  | cons next codes =>
    have hpair := (List.isChain_cons_cons.mp h.unpaired).1
    rw [List.flatMap_cons, codeUnits]
    split_ifs with hnext
    · rw [List.singleton_append, joinSurrogates, if_neg hpair]
    · rw [List.cons_append, joinSurrogates, if_neg (by
        have := h.lt next (by simp)
        omega)]

theorem joinSurrogates_codeUnits {codes : List ℕ} (h : IsText codes) :
    joinSurrogates (codes.flatMap codeUnits) = codes := by
  induction codes with
  | nil => rfl
  | cons code codes ih =>
    have htail : IsText codes :=
      ⟨fun c hc => h.lt c (List.mem_cons_of_mem code hc), h.unpaired.tail⟩
    have hlt := h.lt code List.mem_cons_self
    by_cases hplane : code < 0x10000
    · have hunits : codeUnits code = [code] := if_pos hplane
      rw [List.flatMap_cons, hunits, List.singleton_append, joinSurrogates_cons h, ih htail]
    · have hunits : codeUnits code =
          [0xd800 + (code - 0x10000) / 1024, 0xdc00 + (code - 0x10000) % 1024] := if_neg hplane
      have hjoin : 0x10000 + 1024 * (0xd800 + (code - 0x10000) / 1024 - 0xd800) +
          (0xdc00 + (code - 0x10000) % 1024 - 0xdc00) = code := by omega
      rw [List.flatMap_cons, hunits, List.cons_append, List.singleton_append, joinSurrogates,
        if_pos (by omega), hjoin, ih htail]

theorem scanString_dumpString {codes : List ℕ} (h : IsText codes) (rest : List Char) :
    ∃ units, scanString (codes.flatMap escapeCode ++ '"' :: rest) = some (units, rest) ∧
      joinSurrogates units = codes :=
  ⟨_, scanString_escapeCodes h.lt rest, joinSurrogates_codeUnits h⟩

theorem scanKey_dumpString {key : List ℕ} (h : IsText key) (s : List Char) :
    scanKey (dumpString key ++ ':' :: s) = some (key, skipBlank s) := by
  have hcolon : skipBlank (':' :: s) = ':' :: s := rfl
  obtain ⟨units, hscan, hjoin⟩ := scanString_dumpString h (':' :: s)
  rw [dumpString, List.cons_append, List.append_assoc, List.singleton_append, scanKey, hscan]
  simp only [Option.bind_eq_bind, Option.bind_some, hcolon, hjoin]

/-! ## Reading values -/

/-- In an array or an object the text is read as the value. -/
structure Prints (text : List Char) (value : Json) : Prop where
  blank (rest : List Char) : skipBlank (text ++ rest) = text ++ rest
  first : text ≠ [] ∧ text.head? ≠ some ']'
  parse {fuel : ℕ} {c : Char} (rest : List Char) (hfuel : text.length ≤ fuel)
    (hc : c ∈ [',', '\x7d', ']']) : parseValue fuel (text ++ c :: rest) = some (value, c :: rest)

theorem Prints.spells {text : List Char} {value : Json} (h : Prints text value) :
    Spells text value where
  blank := h.blank
  parse rest hfuel hc := h.parse rest hfuel (by
    rcases List.mem_cons.mp hc with rfl | hc
    · simp
    · simp [List.mem_singleton.mp hc])

theorem endsNumber_of_mem_closers {c : Char} (hc : c ∈ [',', '\x7d', ']']) : EndsNumber c := by
  simp only [List.mem_cons, List.not_mem_nil, or_false] at hc
  rcases hc with rfl | rfl | rfl <;> simp [EndsNumber]

theorem exists_fuel_of_pos {n fuel : ℕ} (hpos : 0 < n) (h : n ≤ fuel) : ∃ m, fuel = m + 1 :=
  ⟨fuel - 1, by omega⟩

theorem printInt_head (minus : Bool) (n : ℕ) (rest : List Char) :
    printInt minus n ++ rest ≠ [] ∧ (printInt minus n ++ rest).head? ≠ some ']' := by
  obtain ⟨c, digits, heq, hc⟩ := printInt_eq_cons minus n
  rw [heq, List.cons_append]
  refine ⟨List.cons_ne_nil _ _, fun h => ?_⟩
  rw [List.head?_cons, Option.some.injEq] at h
  subst h
  rcases hc with ⟨hc, -⟩ | hc <;> cases hc

theorem Prints.literal {text : List Char} {value : Json} (h : (text, value) ∈ literals.take 3) :
    Prints text value := by
  simp only [literals, List.take_succ_cons, List.take_zero, List.mem_cons, List.not_mem_nil,
    or_false, Prod.mk.injEq] at h
  rcases h with ⟨rfl, rfl⟩ | ⟨rfl, rfl⟩ | ⟨rfl, rfl⟩ <;>
  · refine ⟨fun _ => rfl, by decide, fun rest hfuel _ => ?_⟩
    obtain ⟨m, rfl⟩ := exists_fuel_of_pos (by decide) hfuel
    rfl

theorem Prints.int (n : ℤ) : Prints (printInt (n < 0) n.natAbs) (.int n) where
  blank := skipBlank_printInt _ _
  first := by simpa using printInt_head (n < 0) n.natAbs []
  parse {fuel c} rest hfuel hc := by
    have hpos := List.length_pos_iff.mpr (by simpa using (printInt_head (n < 0) n.natAbs []).1)
    obtain ⟨m, rfl⟩ := exists_fuel_of_pos hpos hfuel
    have hvalue : (if decide (n < 0) = true then -(n.natAbs : ℤ) else n.natAbs) = n := by
      simp only [decide_eq_true_eq]
      omega
    rw [parseValue_printInt, scanNumber_int _ _ rest (endsNumber_of_mem_closers hc), hvalue]

theorem Prints.float {literal : List Char} (h : IsPointed literal) :
    Prints literal (.float literal) := by
  obtain ⟨minus, n, digits, hne, hdigits, rfl⟩ := h
  refine ⟨fun rest => ?_, printInt_head minus n _, fun {fuel c} rest hfuel hc => ?_⟩
  · rw [List.append_assoc]
    exact skipBlank_printInt _ _ _
  · obtain ⟨m, rfl⟩ :=
      exists_fuel_of_pos (List.length_pos_iff.mpr (printInt_head minus n _).1) hfuel
    rw [List.append_assoc, List.cons_append, parseValue_printInt]
    exact scanNumber_frac minus n hne hdigits rest (endsNumber_of_mem_closers hc)

theorem Prints.string {codes : List ℕ} (h : IsText codes) :
    Prints (dumpString codes) (.string codes) where
  blank _ := rfl
  first := ⟨List.cons_ne_nil _ _, by simp [dumpString]⟩
  parse {fuel c} rest hfuel _ := by
    obtain ⟨m, rfl⟩ := exists_fuel_of_pos (by simp [dumpString]) hfuel
    obtain ⟨units, hscan, hjoin⟩ := scanString_dumpString h (c :: rest)
    rw [dumpString, List.cons_append, List.append_assoc, List.singleton_append, parseValue, hscan,
      ← hjoin]
    rfl

theorem length_dumpElements_pos (elements : List Json) : 0 < (dumpElements elements).length := by
  rw [dumpElements.eq_def]
  split <;> simp

theorem length_dumpMembers_pos (members : List (List ℕ × Json)) :
    0 < (dumpMembers members).length := by
  rw [dumpMembers.eq_def]
  split <;> simp

theorem exists_dumpMembers (member : List ℕ × Json) (members : List (List ℕ × Json))
    (rest : List Char) : ∃ s, dumpMembers (member :: members) ++ rest = '"' :: s := by
  obtain ⟨key, value⟩ := member
  cases members <;>
  · rw [dumpMembers, dumpMember, dumpString]
    exact ⟨_, rfl⟩

theorem skipBlank_dumpElements {value : Json} (elements : List Json)
    (h : Prints (dumps value) value) (rest : List Char) :
    skipBlank (dumpElements (value :: elements) ++ rest) =
      dumpElements (value :: elements) ++ rest := by
  cases elements with
  | nil =>
    rw [dumpElements, List.append_assoc]
    exact h.blank _
  | cons next elements =>
    rw [dumpElements, List.append_assoc]
    exact h.blank _

/-- The elements of an array are read one after the other. -/
theorem parseElements_dumpElements {value : Json} {elements : List Json}
    (h : ∀ v ∈ value :: elements, Prints (dumps v) v) (rest : List Char) {fuel : ℕ}
    (hfuel : (dumpElements (value :: elements)).length ≤ fuel) :
    parseElements fuel (dumpElements (value :: elements) ++ rest) =
      some (value :: elements, rest) := by
  induction elements generalizing value fuel with
  | nil =>
    obtain ⟨m, rfl⟩ := exists_fuel_of_pos (length_dumpElements_pos _) hfuel
    rw [dumpElements, List.length_append, List.length_singleton] at hfuel
    have hvalue := (h value List.mem_cons_self).parse rest
      (show (dumps value).length ≤ m by omega) (by simp : ']' ∈ _)
    have hclose : skipBlank (']' :: rest) = ']' :: rest := rfl
    rw [dumpElements, List.append_assoc, List.singleton_append, parseElements, hvalue]
    simp only [Option.bind_eq_bind, Option.bind_some, hclose, Option.pure_def]
  | cons next elements ih =>
    obtain ⟨m, rfl⟩ := exists_fuel_of_pos (length_dumpElements_pos _) hfuel
    rw [dumpElements, List.length_append, List.length_cons] at hfuel
    have hnext := h next (by simp)
    have hvalue := (h value List.mem_cons_self).parse (dumpElements (next :: elements) ++ rest)
      (show (dumps value).length ≤ m by omega) (by simp : ',' ∈ _)
    have hrest := ih (fun v hv => h v (List.mem_cons_of_mem value hv))
      (show (dumpElements (next :: elements)).length ≤ m by omega)
    have hcomma : skipBlank (',' :: (dumpElements (next :: elements) ++ rest)) =
        ',' :: (dumpElements (next :: elements) ++ rest) := rfl
    rw [dumpElements, List.append_assoc, List.cons_append, parseElements, hvalue]
    simp only [Option.bind_eq_bind, Option.bind_some, hcomma,
      skipBlank_dumpElements elements hnext rest, hrest, Option.pure_def]

/-- The members of an object are read one after the other. -/
theorem parseMembers_dumpMembers {member : List ℕ × Json} {members : List (List ℕ × Json)}
    (hkey : ∀ m ∈ member :: members, IsText m.1)
    (h : ∀ m ∈ member :: members, Prints (dumps m.2) m.2) (rest : List Char) {fuel : ℕ}
    (hfuel : (dumpMembers (member :: members)).length ≤ fuel) :
    parseMembers fuel (dumpMembers (member :: members) ++ rest) =
      some (member :: members, rest) := by
  induction members generalizing member fuel with
  | nil =>
    obtain ⟨m, rfl⟩ := exists_fuel_of_pos (length_dumpMembers_pos _) hfuel
    obtain ⟨key, value⟩ := member
    rw [dumpMembers, dumpMember] at hfuel
    simp only [List.length_append, List.length_cons, List.length_nil] at hfuel
    have hprints : Prints (dumps value) value := h (key, value) List.mem_cons_self
    have hvalue := hprints.parse rest (show (dumps value).length ≤ m by omega)
      (by simp : '\x7d' ∈ _)
    have hclose : skipBlank ('\x7d' :: rest) = '\x7d' :: rest := rfl
    rw [dumpMembers, dumpMember, List.append_assoc, List.append_assoc, List.cons_append,
      List.singleton_append, parseMembers, scanKey_dumpString (hkey _ List.mem_cons_self),
      hprints.blank]
    simp only [Option.bind_eq_bind, Option.bind_some, hvalue, hclose, Option.pure_def]
  | cons next members ih =>
    obtain ⟨m, rfl⟩ := exists_fuel_of_pos (length_dumpMembers_pos _) hfuel
    obtain ⟨key, value⟩ := member
    rw [dumpMembers, dumpMember] at hfuel
    simp only [List.length_append, List.length_cons] at hfuel
    have hprints : Prints (dumps value) value := h (key, value) List.mem_cons_self
    have hvalue := hprints.parse (dumpMembers (next :: members) ++ rest)
      (show (dumps value).length ≤ m by omega) (by simp : ',' ∈ _)
    have hrest := ih (fun v hv => hkey v (List.mem_cons_of_mem _ hv))
      (fun v hv => h v (List.mem_cons_of_mem _ hv))
      (show (dumpMembers (next :: members)).length ≤ m by omega)
    have hcomma : skipBlank (',' :: (dumpMembers (next :: members) ++ rest)) =
        ',' :: (dumpMembers (next :: members) ++ rest) := rfl
    have hblank : skipBlank (dumpMembers (next :: members) ++ rest) =
        dumpMembers (next :: members) ++ rest := by
      obtain ⟨s, hs⟩ := exists_dumpMembers next members rest
      rw [hs]
      rfl
    rw [dumpMembers, dumpMember, List.append_assoc, List.append_assoc, List.cons_append,
      List.cons_append, parseMembers, scanKey_dumpString (hkey _ List.mem_cons_self),
      hprints.blank]
    simp only [Option.bind_eq_bind, Option.bind_some, hvalue, hcomma, hblank, hrest,
      Option.pure_def]

theorem parseValue_array {elements : List Json} (h : ∀ v ∈ elements, Prints (dumps v) v)
    (rest : List Char) {fuel : ℕ} (hfuel : (dumps (.array elements)).length ≤ fuel) :
    parseValue fuel (dumps (.array elements) ++ rest) = some (.array elements, rest) := by
  obtain ⟨m, rfl⟩ := exists_fuel_of_pos (by simp [dumps]) hfuel
  rw [dumps, List.length_cons] at hfuel
  cases elements with
  | nil => rfl
  | cons value elements =>
    have hprints := h value List.mem_cons_self
    have hparse := parseElements_dumpElements h rest
      (show (dumpElements (value :: elements)).length ≤ m by omega)
    have hblank := skipBlank_dumpElements elements hprints rest
    rw [dumps, List.cons_append, parseValue, hblank]
    split
    · next s heq =>
      exfalso
      refine hprints.first.2 ?_
      have hhead := congrArg List.head? heq
      cases elements <;>
      · rw [dumpElements, List.append_assoc, List.head?_append_of_ne_nil _ hprints.first.1,
          List.head?_cons] at hhead
        exact hhead
    · rw [hparse]
      rfl

theorem parseValue_object {members : List (List ℕ × Json)} (hkey : ∀ m ∈ members, IsText m.1)
    (h : ∀ m ∈ members, Prints (dumps m.2) m.2) (rest : List Char) {fuel : ℕ}
    (hfuel : (dumps (.object members)).length ≤ fuel) :
    parseValue fuel (dumps (.object members) ++ rest) = some (.object members, rest) := by
  obtain ⟨m, rfl⟩ := exists_fuel_of_pos (by simp [dumps]) hfuel
  rw [dumps, List.length_cons] at hfuel
  cases members with
  | nil => rfl
  | cons member members =>
    have hparse := parseMembers_dumpMembers hkey h rest
      (show (dumpMembers (member :: members)).length ≤ m by omega)
    obtain ⟨s, hs⟩ := exists_dumpMembers member members rest
    rw [hs] at hparse
    rw [dumps, List.cons_append, hs]
    exact congrArg (Option.map fun m => (object m.1, m.2)) hparse

theorem Dumpable.prints {value : Json} (h : Dumpable value) : Prints (dumps value) value := by
  induction h with
  | null => exact .literal (by simp [literals, dumps])
  | bool b => cases b <;> exact .literal (by simp [literals, dumps])
  | int n => exact .int n
  | float h => exact .float h
  | string h => exact .string h
  | array h ih =>
    exact ⟨fun _ => rfl, ⟨List.cons_ne_nil _ _, by simp [dumps]⟩,
      fun rest hfuel _ => parseValue_array ih _ hfuel⟩
  | object hkey h ih =>
    exact ⟨fun _ => rfl, ⟨List.cons_ne_nil _ _, by simp [dumps]⟩,
      fun rest hfuel _ => parseValue_object hkey ih _ hfuel⟩

theorem loads_dumps {members : List (List ℕ × Json)} (h : Dumpable (.object members)) :
    loads (dumps (.object members)) = some (.object members) := by
  cases h with
  | object hkey h =>
    have hblank : skipBlank (dumps (.object members)) = dumps (.object members) := rfl
    have hparse := parseValue_object hkey (fun m hm => (h m hm).prints) []
      (Nat.le_succ (dumps (.object members)).length)
    rw [List.append_nil] at hparse
    rw [loads, hblank, hparse]
    rfl

/-! ## ASCII -/

theorem printable_hexDigit (n : ℕ) : 32 ≤ (hexDigit n).toNat ∧ (hexDigit n).toNat < 128 := by
  have hall : ∀ d < 16, 32 ≤ d.digitChar.toNat ∧ d.digitChar.toNat < 128 := by decide
  exact hall (n % 16) (Nat.mod_lt n (by decide))

theorem printable_escapeUnits (units : List ℕ) : Printable (units.flatMap escapeUnit) := by
  intro c hc
  obtain ⟨unit, -, hc⟩ := List.mem_flatMap.mp hc
  simp only [escapeUnit, List.mem_cons, List.not_mem_nil, or_false] at hc
  rcases hc with rfl | rfl | rfl | rfl | rfl | rfl
  · decide
  · decide
  all_goals exact printable_hexDigit _

theorem printable_escapeCode (code : ℕ) : Printable (escapeCode code) := by
  rw [escapeCode]
  split_ifs with h92 h34 h8 h12 h10 h13 h9 hprint
  iterate 7 decide
  · have hnat := toNat_ofNat_ascii (show code < 128 by omega)
    intro c hc
    rw [List.mem_singleton.mp hc, hnat]
    omega
  · exact printable_escapeUnits _

theorem printable_dumpString (codes : List ℕ) : Printable (dumpString codes) := by
  refine List.forall_mem_cons.mpr ⟨by decide, printable_append.mpr ⟨fun c hc => ?_, by decide⟩⟩
  obtain ⟨code, -, hc⟩ := List.mem_flatMap.mp hc
  exact printable_escapeCode code c hc

theorem printable_dumpElements {elements : List Json}
    (h : ∀ value ∈ elements, Printable (dumps value)) : Printable (dumpElements elements) := by
  induction elements with
  | nil => decide
  | cons value elements ih =>
    have hvalue := h value List.mem_cons_self
    have hrest := ih fun v hv => h v (List.mem_cons_of_mem value hv)
    cases elements with
    | nil =>
      rw [dumpElements]
      exact printable_append.mpr ⟨hvalue, by decide⟩
    | cons next elements =>
      rw [dumpElements]
      exact printable_append.mpr ⟨hvalue, List.forall_mem_cons.mpr ⟨by decide, hrest⟩⟩

theorem printable_dumpMember {member : List ℕ × Json} (h : Printable (dumps member.2)) :
    Printable (dumpMember member) := by
  rw [dumpMember.eq_def]
  exact printable_append.mpr
    ⟨printable_dumpString member.1, List.forall_mem_cons.mpr ⟨by decide, h⟩⟩

theorem printable_dumpMembers {members : List (List ℕ × Json)}
    (h : ∀ m ∈ members, Printable (dumps m.2)) : Printable (dumpMembers members) := by
  induction members with
  | nil => decide
  | cons member members ih =>
    have hmember := printable_dumpMember (h member List.mem_cons_self)
    have hrest := ih fun m hm => h m (List.mem_cons_of_mem member hm)
    cases members with
    | nil =>
      rw [dumpMembers]
      exact printable_append.mpr ⟨hmember, by decide⟩
    | cons next members =>
      rw [dumpMembers]
      exact printable_append.mpr ⟨hmember, List.forall_mem_cons.mpr ⟨by decide, hrest⟩⟩

theorem Dumpable.printable {value : Json} (h : Dumpable value) : Printable (dumps value) := by
  induction h with
  | null => decide
  | bool b => cases b <;> decide
  | int n => exact printable_printInt _ _
  | float h =>
    obtain ⟨minus, n, digits, -, hdigits, rfl⟩ := h
    exact printable_append.mpr ⟨printable_printInt minus n,
      List.forall_mem_cons.mpr ⟨by decide, printable_digits hdigits⟩⟩
  | string h => exact printable_dumpString _
  | array h ih => exact List.forall_mem_cons.mpr ⟨by decide, printable_dumpElements ih⟩
  | object hkey h ih => exact List.forall_mem_cons.mpr ⟨by decide, printable_dumpMembers ih⟩

theorem isText_codes (text : List Char) : IsText (codes text) := by
  have hvalid (c : Char) : c.toNat < 0xd800 ∨ 0xdfff < c.toNat ∧ c.toNat < 0x110000 := c.valid
  constructor
  · intro code hcode
    obtain ⟨c, -, rfl⟩ := List.mem_map.mp hcode
    have := hvalid c
    omega
  · refine List.isChain_iff_getElem.mpr fun i hi => ?_
    have hlt : i < text.length := by simpa [codes] using Nat.lt_of_succ_lt hi
    have := hvalid text[i]
    simp only [codes, List.getElem_map]
    omega

end Json
end SnipeIt.Support
