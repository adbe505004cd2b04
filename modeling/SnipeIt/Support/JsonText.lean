import SnipeIt.Support.Decimal

/-! # Objects of JSON as they are printed

An object is printed without blanks, from members that know what they are read
as. Reading the text gives the object.
-/

namespace SnipeIt.Support
namespace Json

/-- In an object the text is read as the value. -/
structure Spells (text : List Char) (value : Json) : Prop where
  blank (rest : List Char) : skipBlank (text ++ rest) = text ++ rest
  parse {fuel : ℕ} {c : Char} (rest : List Char) (hfuel : text.length ≤ fuel)
    (hc : c ∈ [',', '\x7d']) : parseValue fuel (text ++ c :: rest) = some (value, c :: rest)

theorem endsNumber_of_mem {c : Char} (hc : c ∈ [',', '\x7d']) : EndsNumber c := by
  simp only [List.mem_cons, List.not_mem_nil, or_false] at hc
  rcases hc with rfl | rfl <;> simp [EndsNumber]

theorem exists_fuel {text : List Char} {fuel : ℕ} (hne : text ≠ []) (h : text.length ≤ fuel) :
    ∃ n, fuel = n + 1 := by
  have hpos := List.length_pos_iff.mpr hne
  exact ⟨fuel - 1, by omega⟩

theorem Spells.string {text : List Char} (h : PlainText text) :
    Spells ('"' :: (text ++ ['"'])) (.string (codes text)) where
  blank _ := rfl
  parse {fuel c} rest hfuel _ := by
    obtain ⟨n, rfl⟩ := exists_fuel (List.cons_ne_nil _ _) hfuel
    rw [List.cons_append, List.append_assoc, List.singleton_append, parseValue,
      scanString_plain h]
    exact congrArg (fun units => some (Json.string units, _)) (joinSurrogates_codes text)

theorem Spells.bool (b : Bool) : Spells (if b then "true" else "false").toList (.bool b) where
  blank rest := by cases b <;> rfl
  parse {fuel c} rest hfuel _ := by
    obtain ⟨n, rfl⟩ := exists_fuel (by cases b <;> decide) hfuel
    cases b <;> rfl

theorem printInt_ne_nil (minus : Bool) (n : ℕ) : printInt minus n ≠ [] := by
  obtain ⟨c, digits, heq, -⟩ := printInt_eq_cons minus n
  rw [heq]
  exact List.cons_ne_nil c digits

theorem Spells.nat (n : ℕ) : Spells (printInt false n) (.int n) where
  blank := skipBlank_printInt false n
  parse {fuel c} rest hfuel hc := by
    obtain ⟨m, rfl⟩ := exists_fuel (printInt_ne_nil false n) hfuel
    rw [parseValue_printInt, scanNumber_int false n rest (endsNumber_of_mem hc)]
    rfl

theorem Spells.fixed (places : ℕ) (q : ℚ) :
    Spells (Decimal.fixed places q) (.float (Decimal.fixed places q)) where
  blank rest := by
    rw [Decimal.fixed, List.append_assoc]
    exact skipBlank_printInt _ _ _
  parse {fuel c} rest hfuel hc := by
    obtain ⟨m, rfl⟩ := exists_fuel (by simp [Decimal.fixed]) hfuel
    obtain ⟨hne, hdigits⟩ := digits_leftpad places (Decimal.units places q % 10 ^ places)
    rw [Decimal.fixed, List.append_assoc, List.cons_append, parseValue_printInt]
    exact scanNumber_frac _ _ hne hdigits rest (endsNumber_of_mem hc)

/-! ## Members -/

structure Field where
  key : List Char
  text : List Char
  value : Json
  plain : PlainText key
  spells : Spells text value

namespace Field

def string (key text : List Char) (hkey : PlainText key) (htext : PlainText text) : Field :=
  ⟨key, _, _, hkey, .string htext⟩

def bool (key : List Char) (hkey : PlainText key) (b : Bool) : Field := ⟨key, _, _, hkey, .bool b⟩

def nat (key : List Char) (hkey : PlainText key) (n : ℕ) : Field := ⟨key, _, _, hkey, .nat n⟩

def fixed (key : List Char) (hkey : PlainText key) (places : ℕ) (q : ℚ) : Field :=
  ⟨key, _, _, hkey, .fixed places q⟩

def written (f : Field) (rest : List Char) : List Char :=
  '"' :: (f.key ++ '"' :: ':' :: (f.text ++ rest))

@[simp] theorem written_string {key text : List Char} (hkey : PlainText key)
    (htext : PlainText text) (rest : List Char) : (string key text hkey htext).written rest =
      '"' :: (key ++ '"' :: ':' :: '"' :: (text ++ '"' :: rest)) := by
  simp [written, string]

@[simp] theorem written_bool {key : List Char} (hkey : PlainText key) (b : Bool)
    (rest : List Char) : (bool key hkey b).written rest =
      '"' :: (key ++ '"' :: ':' :: ((if b then "true" else "false").toList ++ rest)) := rfl

@[simp] theorem written_nat {key : List Char} (hkey : PlainText key) (n : ℕ) (rest : List Char) :
    (nat key hkey n).written rest = '"' :: (key ++ '"' :: ':' :: (printInt false n ++ rest)) := rfl

@[simp] theorem written_fixed {key : List Char} (hkey : PlainText key) (places : ℕ) (q : ℚ)
    (rest : List Char) : (fixed key hkey places q).written rest =
      '"' :: (key ++ '"' :: ':' :: (Decimal.fixed places q ++ rest)) := rfl

end Field

/-- Members with commas between them, and the closing brace. -/
def writtenFields : List Field → List Char → List Char
  | [], rest => '\x7d' :: rest
  | [f], rest => f.written ('\x7d' :: rest)
  | f :: g :: fields, rest => f.written (',' :: writtenFields (g :: fields) rest)

def objectText (fields : List Field) : List Char := '\x7b' :: writtenFields fields []

def objectValue (fields : List Field) : Json := .object (fields.map fun f => (codes f.key, f.value))

theorem writtenFields_append (fields : List Field) (rest rest' : List Char) :
    writtenFields fields (rest ++ rest') = writtenFields fields rest ++ rest' := by
  fun_induction writtenFields fields rest with
  | case1 => rfl
  | case2 => simp [writtenFields, Field.written]
  | case3 rest f g fields ih => simp [writtenFields, Field.written, ih]

theorem objectText_append (fields : List Field) (rest : List Char) :
    objectText fields ++ rest = '\x7b' :: writtenFields fields rest := by
  rw [objectText, List.cons_append, ← writtenFields_append, List.nil_append]

theorem exists_writtenFields (f : Field) (fields : List Field) (rest : List Char) :
    ∃ s, writtenFields (f :: fields) rest = '"' :: s := by
  cases fields <;> exact ⟨_, rfl⟩

theorem parseMembers_writtenFields (f : Field) (fields : List Field) (rest : List Char) {fuel : ℕ}
    (hfuel : (writtenFields (f :: fields) []).length ≤ fuel) :
    parseMembers fuel (writtenFields (f :: fields) rest) =
      some ((f :: fields).map fun f => (codes f.key, f.value), rest) := by
  induction fields generalizing f fuel with
  | nil =>
    rw [writtenFields, Field.written] at hfuel
    simp only [List.length_cons, List.length_append, List.length_nil] at hfuel
    obtain ⟨n, rfl⟩ : ∃ n, fuel = n + 1 := ⟨fuel - 1, by omega⟩
    exact parseMembers_last f.plain (f.spells.blank _)
      (f.spells.parse rest (by omega) (by simp))
  | cons g fields ih =>
    rw [writtenFields, Field.written] at hfuel
    simp only [List.length_cons, List.length_append] at hfuel
    obtain ⟨n, rfl⟩ : ∃ n, fuel = n + 1 := ⟨fuel - 1, by omega⟩
    have hrest := ih g (by omega : (writtenFields (g :: fields) []).length ≤ n)
    obtain ⟨s, hs⟩ := exists_writtenFields g fields rest
    have hvalue := f.spells.parse (writtenFields (g :: fields) rest) (by omega : _ ≤ n)
      (by simp : ',' ∈ _)
    rw [hs] at hvalue hrest
    rw [writtenFields, Field.written, hs]
    exact (parseMembers_comma f.plain (f.spells.blank _) hvalue).trans
      (congrArg (Option.map _) hrest)

/-- An object is read member by member, whatever follows it. -/
theorem parseValue_objectText {fields : List Field} (hne : fields ≠ []) (rest : List Char)
    {fuel : ℕ} (hfuel : (objectText fields).length ≤ fuel) :
    parseValue fuel (objectText fields ++ rest) = some (objectValue fields, rest) := by
  obtain ⟨f, fields, rfl⟩ := List.exists_cons_of_ne_nil hne
  obtain ⟨n, rfl⟩ := exists_fuel (List.cons_ne_nil _ _) hfuel
  have hlen : (writtenFields (f :: fields) []).length ≤ n := by
    rw [objectText, List.length_cons] at hfuel
    omega
  have hmembers := parseMembers_writtenFields f fields rest hlen
  obtain ⟨s, hs⟩ := exists_writtenFields f fields rest
  rw [hs] at hmembers
  rw [objectText_append, hs]
  exact congrArg (Option.map fun m => (object m.1, m.2)) hmembers

theorem Spells.object {fields : List Field} (hne : fields ≠ []) :
    Spells (objectText fields) (objectValue fields) where
  blank _ := rfl
  parse _ hfuel _ := parseValue_objectText hne _ hfuel

def Field.object (key : List Char) (hkey : PlainText key) (fields : List Field)
    (hne : fields ≠ []) : Field := ⟨key, _, _, hkey, .object hne⟩

@[simp] theorem Field.written_object {key : List Char} (hkey : PlainText key) {fields : List Field}
    (hne : fields ≠ []) (rest : List Char) : (Field.object key hkey fields hne).written rest =
      '"' :: (key ++ '"' :: ':' :: '\x7b' :: writtenFields fields rest) := by
  rw [written, ← objectText_append]
  rfl

theorem loads_objectText {fields : List Field} (hne : fields ≠ []) :
    loads (objectText fields) = some (objectValue fields) := by
  have hblank : skipBlank (objectText fields) = objectText fields := rfl
  have hparse := parseValue_objectText hne [] (Nat.le_succ (objectText fields).length)
  rw [List.append_nil] at hparse
  rw [loads, hblank, hparse]
  rfl

end Json
end SnipeIt.Support
