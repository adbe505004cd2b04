import SnipeIt.Config.Reader

/-! # The files of the configuration's schema

A flat JSON object as it is written, with its white space and escapes, and what
it means.
-/

namespace SnipeIt.Config
open Support

/-! ## Strings -/

def backslash : UInt8 := 92

/-- What may stand for itself in a string. -/
def IsPlain (b : UInt8) : Prop := 32 ≤ b ∧ b ≠ quote ∧ b ≠ backslash

instance (b : UInt8) : Decidable (IsPlain b) := inferInstanceAs (Decidable (_ ∧ _))

inductive SimpleEscape where
  | quote | backslash | slash | backspace | formFeed | lineFeed | carriageReturn | tab
  deriving DecidableEq

def SimpleEscape.letter : SimpleEscape → UInt8
  | quote => 34
  | backslash => 92
  | slash => 47
  | backspace => 98
  | formFeed => 102
  | lineFeed => 110
  | carriageReturn => 114
  | tab => 116

def SimpleEscape.value : SimpleEscape → UInt8
  | quote => 34
  | backslash => 92
  | slash => 47
  | backspace => 8
  | formFeed => 12
  | lineFeed => 10
  | carriageReturn => 13
  | tab => 9

def isHexDigit (b : UInt8) : Bool := isDigit b || (65 ≤ b && b ≤ 70) || (97 ≤ b && b ≤ 102)

abbrev HexDigit := {b : UInt8 // isHexDigit b}

def HexDigit.value (d : HexDigit) : ℕ :=
  if d.1 ≤ 57 then d.1.toNat - 48 else if d.1 ≤ 70 then d.1.toNat - 55 else d.1.toNat - 87

inductive StringItem where
  | plain (b : UInt8) (h : IsPlain b)
  | escape (e : SimpleEscape)
  | unicode (a b c d : HexDigit)
  deriving DecidableEq

def StringItem.render : StringItem → List UInt8
  | plain b _ => [b]
  | escape e => [backslash, e.letter]
  | unicode a b c d => [backslash, 117, a, b, c, d]

def renderItems (items : List StringItem) : List UInt8 := items.flatMap StringItem.render

def codeUnit (a b c d : HexDigit) : ℕ :=
  4096 * a.value + 256 * b.value + 16 * c.value + d.value

/-- The bytes of a code point, also of one half of a surrogate pair. -/
def codePointBytes (n : ℕ) : List UInt8 :=
  if n < 0x80 then [n.toUInt8]
  else if n < 0x800 then [(0xc0 + n / 64).toUInt8, (0x80 + n % 64).toUInt8]
  else if n < 0x10000 then
    [(0xe0 + n / 4096).toUInt8, (0x80 + n / 64 % 64).toUInt8, (0x80 + n % 64).toUInt8]
  else
    [(0xf0 + n / 262144).toUInt8, (0x80 + n / 4096 % 64).toUInt8, (0x80 + n / 64 % 64).toUInt8,
      (0x80 + n % 64).toUInt8]

/-- The bytes of the string; two escapes that are a surrogate pair are one code point. -/
def decodeItems : List StringItem → List UInt8
  | [] => []
  | .plain b _ :: items => b :: decodeItems items
  | .escape e :: items => e.value :: decodeItems items
  | .unicode a b c d :: .unicode a' b' c' d' :: items =>
    let high := codeUnit a b c d
    let low := codeUnit a' b' c' d'
    if 0xd800 ≤ high ∧ high < 0xdc00 ∧ 0xdc00 ≤ low ∧ low < 0xe000 then
      codePointBytes (0x10000 + 1024 * (high - 0xd800) + (low - 0xdc00)) ++ decodeItems items
    else codePointBytes high ++ decodeItems (.unicode a' b' c' d' :: items)
  | .unicode a b c d :: items => codePointBytes (codeUnit a b c d) ++ decodeItems items

/-- Every byte stands for itself. -/
def Unescaped (items : List StringItem) : Prop := ∀ item ∈ items, ∃ b h, item = .plain b h

/-! ## Objects -/

def isBlank (b : UInt8) : Bool := b = 32 || b = 9 || b = 10 || b = 13

theorem eq_of_isBlank {b : UInt8} (h : isBlank b) : b = 32 ∨ b = 9 ∨ b = 10 ∨ b = 13 := by
  simpa [isBlank, or_assoc] using h

abbrev Blank := {ws : List UInt8 // ∀ b ∈ ws, isBlank b}

inductive JsonValue where
  | string (items : List StringItem)
  | int (neg : Bool) (n : ℕ)
  | bool (b : Bool)
  deriving DecidableEq

def decimal (n : ℕ) : List UInt8 := Utf8.encode (Nat.toDigits 10 n)

def JsonValue.render : JsonValue → List UInt8
  | string items => quote :: renderItems items ++ [quote]
  | int neg n => (if neg then [45] else []) ++ decimal n
  | bool b => if b then ascii "true" else ascii "false"

inductive Setting where
  | text (bytes : List UInt8)
  | int (n : ℤ)
  | bool (b : Bool)
  deriving DecidableEq

def JsonValue.denote : JsonValue → Setting
  | string items => .text (decodeItems items)
  | int neg n => .int (if neg then -n else n)
  | bool b => .bool b

structure Member where
  before : Blank
  key : List StringItem
  beforeColon : Blank
  afterColon : Blank
  value : JsonValue
  after : Blank
  deriving DecidableEq

namespace Member

def name (m : Member) : List UInt8 := decodeItems m.key

def renderValue (m : Member) : List UInt8 :=
  m.beforeColon ++ colon :: (m.afterColon ++ (m.value.render ++ m.after))

def render (m : Member) : List UInt8 :=
  m.before ++ quote :: (renderItems m.key ++ quote :: m.renderValue)

end Member

/-- `inner` is the white space in an object that has no members. -/
structure Document where
  lead : Blank
  inner : Blank
  members : List Member
  trail : Blank

namespace Document

def comma : UInt8 := 44
def openBrace : UInt8 := 123
def closeBrace : UInt8 := 125

/-- What follows a member: the other members and the end. -/
def renderRest (trail : Blank) : List Member → List UInt8
  | [] => closeBrace :: trail
  | m :: members => comma :: (m.render ++ renderRest trail members)

def render (doc : Document) : List UInt8 :=
  doc.lead ++ openBrace ::
    match doc.members with
    | [] => doc.inner ++ closeBrace :: doc.trail
    | m :: members => m.render ++ renderRest doc.trail members

def lookup (name : List UInt8) : List Member → Option JsonValue
  | [] => none
  | m :: members => (lookup name members).or (if m.name = name then some m.value else none)

end Document

theorem decimal_eq (n : ℕ) : decimal n = (Nat.toDigits 10 n).map fun c => c.val.toUInt8 := by
  refine Utf8.encode_ascii fun c hc => ?_
  have hdigit := Utf8.toNat_of_isDigit (Nat.isDigit_of_mem_toDigits (by decide) (by decide) hc)
  omega

theorem toNat_digit {c : Char} (h : c.isDigit) : c.val.toUInt8.toNat = c.toNat := by
  have hdigit := Utf8.toNat_of_isDigit h
  rw [UInt32.toNat_toUInt8]
  exact Nat.mod_eq_of_lt (by change c.toNat < 2 ^ 8; omega)

theorem isDigit_of_mem_decimal {n : ℕ} {b : UInt8} (h : b ∈ decimal n) : isDigit b := by
  rw [decimal_eq] at h
  obtain ⟨c, hc, rfl⟩ := List.mem_map.mp h
  have hdigit := Nat.isDigit_of_mem_toDigits (by decide) (by decide) hc
  have hrange := Utf8.toNat_of_isDigit hdigit
  simp only [isDigit, Bool.and_eq_true, decide_eq_true_eq, UInt8.le_iff_toNat_le,
    toNat_digit hdigit]
  exact hrange

theorem decimal_eq_cons (n : ℕ) : ∃ d digits, decimal n = d :: digits ∧ isDigit d := by
  have hne : decimal n ≠ [] := by
    rw [decimal_eq]
    exact fun h => Nat.toDigits_ne_nil (List.map_eq_nil_iff.mp h)
  obtain ⟨d, digits, hdigits⟩ := List.exists_cons_of_ne_nil hne
  exact ⟨d, digits, hdigits, isDigit_of_mem_decimal (hdigits ▸ List.mem_cons_self)⟩

inductive Key where
  | videoPath | mediamtxPath | mediamtxConfig | rtspStreamName
  | websocketPort | rtspPort | detectionFrameInterval
  | loopVideo
  deriving DecidableEq

namespace Key

def name : Key → List UInt8
  | videoPath => ascii "video_path"
  | mediamtxPath => ascii "mediamtx_path"
  | mediamtxConfig => ascii "mediamtx_config"
  | rtspStreamName => ascii "rtsp_stream_name"
  | websocketPort => ascii "websocket_port"
  | rtspPort => ascii "rtsp_port"
  | detectionFrameInterval => ascii "detection_frame_interval"
  | loopVideo => ascii "loop_video"

def size : Key → ℕ
  | rtspStreamName => streamNameSize
  | _ => maxPathLength

/-- The value is of the documented type and has room in the field. -/
def Fits (key : Key) (value : Setting) : Prop :=
  match key, value with
  | videoPath, .text bytes | mediamtxPath, .text bytes | mediamtxConfig, .text bytes
  | rtspStreamName, .text bytes => bytes.length < key.size
  | websocketPort, .int n | rtspPort, .int n
  | detectionFrameInterval, .int n => -2 ^ 31 ≤ n ∧ n < 2 ^ 31
  | loopVideo, .bool _ => True
  | _, _ => False

end Key

def StreamingConfig.get (config : StreamingConfig) : Key → Setting
  | .videoPath => .text config.videoPath
  | .mediamtxPath => .text config.mediamtxPath
  | .mediamtxConfig => .text config.mediamtxConfig
  | .rtspStreamName => .text config.rtspStreamName
  | .websocketPort => .int config.websocketPort
  | .rtspPort => .int config.rtspPort
  | .detectionFrameInterval => .int config.detectionFrameInterval
  | .loopVideo => .bool config.loopVideo

namespace Document

/-- Recognised keys have values of their type, the other keys have strings. -/
structure InSchema (doc : Document) : Prop where
  fits : ∀ m ∈ doc.members, ∀ key : Key, m.name = key.name → key.Fits m.value.denote
  others : ∀ m ∈ doc.members, (∀ key : Key, m.name ≠ key.name) → ∃ items, m.value = .string items

/-- Every field has the value of its key, or its default. -/
def Configures (doc : Document) (config : StreamingConfig) : Prop :=
  ∀ key : Key, config.get key =
    ((lookup key.name doc.members).map JsonValue.denote).getD (configInitDefaults.get key)

end Document
end SnipeIt.Config
