import SnipeIt.Config.Reader
import SnipeIt.Ipc.Connection
import SnipeIt.Support.Decimal

/-! # The START command (`unix_socket.c`)

The server prints the command with `%s` for the path of the configuration; the
detector reads it as JSON.
-/

namespace SnipeIt.Ipc
open Support Json Utf8 Config

/-! ## Printing -/

/-- A `double`: `mantissa * 2 ^ exponent` with a sign, an infinity or no number. -/
inductive Double where
  | finite (minus : Bool) (mantissa : Fin (2 ^ 53)) (exponent : ℤ) (h : exponent ≤ 971)
  | infinite (minus : Bool)
  | nan (minus : Bool)
  deriving DecidableEq

/-- The quotient, rounded to the nearest number and to the even one of two. -/
def roundHalfEven (n d : ℕ) : ℕ :=
  if 2 * (n % d) < d ∨ (2 * (n % d) = d ∧ n / d % 2 = 0) then n / d else n / d + 1

namespace Double

def IsFinite : Double → Prop
  | finite .. => True
  | _ => False

instance : (d : Double) → Decidable d.IsFinite
  | finite .. => isTrue trivial
  | infinite _ => isFalse id
  | nan _ => isFalse id

/-- `mantissa * 2 ^ exponent` in units of the last of the places. -/
def scaled (places mantissa : ℕ) (exponent : ℤ) : ℕ :=
  if 0 ≤ exponent then mantissa * 10 ^ places * 2 ^ exponent.toNat
  else roundHalfEven (mantissa * 10 ^ places) (2 ^ (-exponent).toNat)

def fixed (places : ℕ) : Double → List Char
  | finite minus mantissa exponent _ =>
    let n := scaled places mantissa exponent
    printInt minus (n / 10 ^ places) ++
      '.' :: (Nat.toDigits 10 (n % 10 ^ places)).leftpad places '0'
  | infinite minus => (if minus then "-inf" else "inf").toList
  | nan minus => (if minus then "-nan" else "nan").toList

end Double

/-- The format `%d`. -/
def printed (n : Int32) : List Char := printInt (n.toInt < 0) n.toInt.natAbs

def startMessage (videoPath : List UInt8) (duration fps : Double) (loop : ℤ)
    (frameInterval : Int32) : List UInt8 :=
  ascii "\x7b\"cmd\":\"start\",\"video_path\":\"" ++ videoPath ++ ascii "\",\"duration_sec\":" ++
    Utf8.encode (duration.fixed 3) ++ ascii ",\"fps\":" ++ Utf8.encode (fps.fixed 2) ++
    ascii ",\"loop\":" ++ ascii (if loop ≠ 0 then "true" else "false") ++
    ascii ",\"frame_interval\":" ++ Utf8.encode (printed frameInterval) ++ ascii "\x7d\n"

/-- `ipc_send_start`: what it writes, if it does. -/
def ipcSendStart (conn : IPCConnection) (videoPath : List UInt8) (duration fps : Double) (loop : ℤ)
    (frameInterval : Int32) : Option (List UInt8) :=
  if conn.clientFd = none then none
  else
    let msg := startMessage videoPath duration fps loop frameInterval
    if maxMsgSize ≤ msg.length then none else some msg

/-- The text is one line, and JSON for an object with the path, `loop` and the interval. -/
def Delivers (msg videoPath : List UInt8) (loop : ℤ) (frameInterval : Int32) : Prop :=
  ∃ body line members text, msg = body ++ [lf] ∧ lf ∉ body ∧ Utf8.decode body = some line ∧
    loads line = some (.object members) ∧
    (object members).get? (codes "video_path".toList) = some (.string (codes text)) ∧
    Utf8.encode text = videoPath ∧
    (object members).get? (codes "loop".toList) = some (.bool (loop ≠ 0)) ∧
    (object members).get? (codes "frame_interval".toList) = some (.int frameInterval.toInt)

/-- The path is UTF-8, and nothing in it has to be escaped. -/
def Transparent (videoPath : List UInt8) : Prop :=
  (Utf8.decode videoPath).isSome ∧ ∀ b ∈ videoPath, 32 ≤ b ∧ b ≠ 92

section

variable (duration fps : Double) (loop : ℤ) (frameInterval : Int32)

/-- The members that follow, each from its first quote on. -/
def intervalMember : List Char :=
  '"' :: ("frame_interval".toList ++ '"' :: ':' :: (printed frameInterval ++ ['\x7d']))

def loopMember : List Char :=
  '"' :: ("loop".toList ++ '"' :: ':' ::
    ((if loop ≠ 0 then "true" else "false").toList ++ ',' :: intervalMember frameInterval))

def fpsMember : List Char :=
  '"' :: ("fps".toList ++ '"' :: ':' :: (fps.fixed 2 ++ ',' :: loopMember loop frameInterval))

def durationMember : List Char :=
  '"' :: ("duration_sec".toList ++ '"' :: ':' ::
    (duration.fixed 3 ++ ',' :: fpsMember fps loop frameInterval))

def pathMember (text : List Char) : List Char :=
  '"' :: ("video_path".toList ++ '"' :: ':' :: '"' :: (text ++ '"' :: ',' ::
    durationMember duration fps loop frameInterval))

/-- The command without its newline, for a path that is text. -/
def startLine (text : List Char) : List Char :=
  '\x7b' :: '"' :: ("cmd".toList ++ '"' :: ':' :: '"' :: ("start".toList ++ '"' :: ',' ::
    pathMember duration fps loop frameInterval text))

theorem startMessage_eq (text : List Char) :
    startMessage (Utf8.encode text) duration fps loop frameInterval =
      Utf8.encode (startLine duration fps loop frameInterval text) ++ [lf] := by
  have hlf : [lf] = Utf8.encode ['\n'] := by decide
  rw [startMessage, hlf]
  simp only [ascii, ← Utf8.encode_append]
  apply congrArg Utf8.encode
  simp [startLine, pathMember, durationMember, fpsMember, loopMember, intervalMember]

end

/-! ## Reading the line -/

theorem toNat_natAbs (n : ℤ) : (if n < 0 then -(n.natAbs : ℤ) else n.natAbs) = n := by
  split_ifs <;> omega

theorem fixed_finite (places : ℕ) {d : Double} (h : d.IsFinite) :
    ∃ minus n digits, d.fixed places = printInt minus n ++ '.' :: digits ∧ digits ≠ [] ∧
      ∀ c ∈ digits, c.isDigit := by
  cases d with
  | finite minus mantissa exponent hexp =>
    obtain ⟨hne, hdigits⟩ := digits_leftpad places
      (Double.scaled places mantissa exponent % 10 ^ places)
    exact ⟨minus, _, _, rfl, hne, hdigits⟩
  | infinite minus => exact h.elim
  | nan minus => exact h.elim

theorem skipBlank_fixed (places : ℕ) (d : Double) (rest : List Char) :
    skipBlank (d.fixed places ++ rest) = d.fixed places ++ rest := by
  cases d with
  | finite minus mantissa exponent hexp =>
    rw [Double.fixed, List.append_assoc]
    exact skipBlank_printInt _ _ _
  | infinite minus => cases minus <;> rfl
  | nan minus => cases minus <;> rfl

/-- JSON has no infinities, and Python writes them otherwise than C. -/
theorem parseValue_fixed (fuel places : ℕ) (d : Double) (rest : List Char) :
    parseValue (fuel + 1) (d.fixed places ++ ',' :: rest) =
      if d.IsFinite then some (.float (d.fixed places), ',' :: rest) else none := by
  split_ifs with h
  · obtain ⟨minus, n, digits, heq, hne, hdigits⟩ := fixed_finite places h
    rw [heq, List.append_assoc, List.cons_append, parseValue_printInt]
    exact scanNumber_frac minus n hne hdigits rest (by simp [EndsNumber])
  · cases d with
    | finite minus mantissa exponent hexp => exact absurd trivial h
    | infinite minus => cases minus <;> rfl
    | nan minus => cases minus <;> rfl

section

variable (fuel : ℕ) (duration fps : Double) (loop : ℤ) (frameInterval : Int32)

theorem parse_intervalMember : parseMembers (fuel + 2) (intervalMember frameInterval) =
    some ([(codes "frame_interval".toList, .int frameInterval.toInt)], []) := by
  refine parseMembers_last (by decide) (skipBlank_printInt _ _ _) ?_
  rw [printed, parseValue_printInt, scanNumber_int _ _ _ (by simp [EndsNumber])]
  simp only [decide_eq_true_eq, toNat_natAbs]

theorem parse_loopMember : parseMembers (fuel + 3) (loopMember loop frameInterval) =
    some ([(codes "loop".toList, .bool (loop ≠ 0)),
      (codes "frame_interval".toList, .int frameInterval.toInt)], []) := by
  have hvalue (rest : List Char) : parseValue (fuel + 2)
      ((if loop ≠ 0 then "true" else "false").toList ++ ',' :: rest) =
      some (.bool (loop ≠ 0), ',' :: rest) := by
    by_cases hloop : loop = 0
    · rw [if_neg (not_not.mpr hloop), decide_eq_false (not_not.mpr hloop)]
      rfl
    · rw [if_pos hloop, decide_eq_true hloop]
      rfl
  have hblank (rest : List Char) :
      skipBlank ((if loop ≠ 0 then "true" else "false").toList ++ rest) =
        (if loop ≠ 0 then "true" else "false").toList ++ rest := by
    split_ifs <;> rfl
  exact (parseMembers_comma (by decide) (hblank _) (hvalue _)).trans
    (congrArg (Option.map _) (parse_intervalMember fuel frameInterval))

theorem parse_fpsMember : parseMembers (fuel + 4) (fpsMember fps loop frameInterval) =
    if fps.IsFinite then some ([(codes "fps".toList, .float (fps.fixed 2)),
      (codes "loop".toList, .bool (loop ≠ 0)),
      (codes "frame_interval".toList, .int frameInterval.toInt)], []) else none := by
  have hvalue := parseValue_fixed (fuel + 2) 2 fps (loopMember loop frameInterval)
  split_ifs at hvalue ⊢
  · exact (parseMembers_comma (by decide) (skipBlank_fixed 2 fps _) hvalue).trans
      (congrArg (Option.map _) (parse_loopMember fuel loop frameInterval))
  · exact parseMembers_none (by decide) (skipBlank_fixed 2 fps _) hvalue

theorem parse_durationMember :
    parseMembers (fuel + 5) (durationMember duration fps loop frameInterval) =
      if duration.IsFinite ∧ fps.IsFinite then
        some ([(codes "duration_sec".toList, .float (duration.fixed 3)),
          (codes "fps".toList, .float (fps.fixed 2)), (codes "loop".toList, .bool (loop ≠ 0)),
          (codes "frame_interval".toList, .int frameInterval.toInt)], []) else none := by
  have hvalue := parseValue_fixed (fuel + 3) 3 duration (fpsMember fps loop frameInterval)
  have hrest := parse_fpsMember fuel fps loop frameInterval
  by_cases hduration : duration.IsFinite
  · rw [if_pos hduration] at hvalue
    refine (parseMembers_comma (by decide) (skipBlank_fixed 3 duration _) hvalue).trans
      ((congrArg (Option.map _) hrest).trans ?_)
    by_cases hfps : fps.IsFinite
    · rw [if_pos hfps, if_pos ⟨hduration, hfps⟩]
      rfl
    · rw [if_neg hfps, if_neg fun h => hfps h.2]
      rfl
  · rw [if_neg hduration] at hvalue
    rw [if_neg fun h => hduration h.1]
    exact parseMembers_none (by decide) (skipBlank_fixed 3 duration _) hvalue

def laterMembers : List (List ℕ × Json) :=
  [(codes "duration_sec".toList, .float (duration.fixed 3)),
    (codes "fps".toList, .float (fps.fixed 2)), (codes "loop".toList, .bool (loop ≠ 0)),
    (codes "frame_interval".toList, .int frameInterval.toInt)]

theorem parse_pathMember {text : List Char} (hplain : PlainText text)
    (hduration : duration.IsFinite) (hfps : fps.IsFinite) :
    parseMembers (fuel + 6) (pathMember duration fps loop frameInterval text) =
      some ((codes "video_path".toList, .string (codes text)) ::
        laterMembers duration fps loop frameInterval, []) := by
  have hvalue : parseValue (fuel + 5) ('"' :: (text ++ '"' :: ',' ::
      durationMember duration fps loop frameInterval)) =
      some (.string (codes text), ',' :: durationMember duration fps loop frameInterval) := by
    rw [parseValue, scanString_plain hplain]
    exact congrArg (fun units => some (Json.string units, _)) (joinSurrogates_codes text)
  have hrest := parse_durationMember fuel duration fps loop frameInterval
  rw [if_pos ⟨hduration, hfps⟩] at hrest
  exact (parseMembers_comma (by decide) rfl hvalue).trans (congrArg (Option.map _) hrest)

/-- What is read for a path that needs escapes is not the path. -/
theorem of_parse_pathMember {text : List Char} (hquote : '"' ∉ text)
    {members : List (List ℕ × Json)} {rest : List Char}
    (h : parseMembers (fuel + 6) (pathMember duration fps loop frameInterval text) =
      some (members, rest)) :
    duration.IsFinite ∧ fps.IsFinite ∧ ∃ units,
      members = (codes "video_path".toList, .string (joinSurrogates units)) ::
        laterMembers duration fps loop frameInterval ∧
      (PlainText text ∨ units.length < text.length) := by
  cases hscan : scanString (text ++ '"' :: ',' ::
      durationMember duration fps loop frameInterval) with
  | none =>
    have hvalue : parseValue (fuel + 5) ('"' :: (text ++ '"' :: ',' ::
        durationMember duration fps loop frameInterval)) = none := by
      rw [parseValue, hscan]
      rfl
    cases (parseMembers_none (by decide) rfl hvalue).symm.trans h
  | some found =>
    obtain ⟨units, after⟩ := found
    have hvalue : parseValue (fuel + 5) ('"' :: (text ++ '"' :: ',' ::
        durationMember duration fps loop frameInterval)) =
        some (.string (joinSurrogates units), after) := by
      rw [parseValue, hscan]
      rfl
    rcases scanString_append text hquote hscan with ⟨rfl, -, hor⟩ | ⟨units', hescaped⟩
    · have hrest := parse_durationMember fuel duration fps loop frameInterval
      by_cases hfinite : duration.IsFinite ∧ fps.IsFinite
      · rw [if_pos hfinite] at hrest
        cases ((parseMembers_comma (by decide) rfl hvalue).trans
          (congrArg (Option.map _) hrest)).symm.trans h
        exact ⟨hfinite.1, hfinite.2, units, rfl, hor⟩
      · rw [if_neg hfinite] at hrest
        cases ((parseMembers_comma (by decide) rfl hvalue).trans
          (congrArg (Option.map _) hrest)).symm.trans h
    · -- The string goes on up to the quote of `duration_sec`, and no comma follows.
      cases hescaped
      cases (parseMembers_stray (by decide) rfl hvalue (by decide) (by decide)
        (by decide)).symm.trans h

theorem loads_startLine (text : List Char) : ∃ fuel,
    loads (startLine duration fps loop frameInterval text) =
      (parseMembers (fuel + 6) (pathMember duration fps loop frameInterval text)).bind
        fun (members, rest) => if skipBlank rest = [] then
          some (.object ((codes "cmd".toList, .string (codes "start".toList)) :: members))
        else none := by
  obtain ⟨fuel, hfuel⟩ : ∃ fuel,
      (startLine duration fps loop frameInterval text).length = fuel + 7 := by
    have hlen : 7 ≤ (startLine duration fps loop frameInterval text).length := by
      simp only [startLine, List.length_cons, List.length_append]
      omega
    exact ⟨_, (Nat.sub_add_cancel hlen).symm⟩
  refine ⟨fuel, ?_⟩
  have hmembers : parseMembers (fuel + 7)
      ('"' :: ("cmd".toList ++ '"' :: ':' :: '"' :: ("start".toList ++ '"' :: ',' ::
        pathMember duration fps loop frameInterval text))) =
      (parseMembers (fuel + 6) (pathMember duration fps loop frameInterval text)).map
        fun (members, rest) =>
          ((codes "cmd".toList, .string (codes "start".toList)) :: members, rest) :=
    parseMembers_comma (by decide) rfl rfl
  have hvalue : parseValue (fuel + 8) (startLine duration fps loop frameInterval text) =
      (parseMembers (fuel + 6) (pathMember duration fps loop frameInterval text)).map
        fun (members, rest) =>
          (.object ((codes "cmd".toList, .string (codes "start".toList)) :: members), rest) := by
    refine Eq.trans ?_ ((congrArg (Option.map fun (members, rest) => (object members, rest))
      hmembers).trans ?_)
    · rfl
    · rw [Option.map_map]
      rfl
  have hblank : skipBlank (startLine duration fps loop frameInterval text) =
      startLine duration fps loop frameInterval text := rfl
  rw [loads, hblank, hfuel, hvalue]
  cases parseMembers (fuel + 6) (pathMember duration fps loop frameInterval text) <;> rfl

end

/-! ## What is written -/

theorem printable_fixed (places : ℕ) (d : Double) : Printable (d.fixed places) := by
  cases d with
  | finite minus mantissa exponent hexp =>
    refine printable_append.mpr ⟨printable_printInt _ _, ?_⟩
    exact List.forall_mem_cons.mpr ⟨by decide, printable_digits (digits_leftpad _ _).2⟩
  | infinite minus => cases minus <;> exact of_decide_eq_true rfl
  | nan minus => cases minus <;> exact of_decide_eq_true rfl

theorem scaled_div_le {places mantissa k : ℕ} {exponent : ℤ} (hm : mantissa < 2 ^ 53)
    (hk : exponent.toNat ≤ k) :
    Double.scaled places mantissa exponent / 10 ^ places ≤ 2 ^ 53 * 2 ^ k := by
  have hpos : 0 < 10 ^ places := Nat.pow_pos (by decide)
  rw [Double.scaled]
  split_ifs with h
  · calc mantissa * 10 ^ places * 2 ^ exponent.toNat / 10 ^ places
      _ = mantissa * 2 ^ exponent.toNat := by
        rw [Nat.mul_right_comm, Nat.mul_div_cancel _ hpos]
      _ ≤ 2 ^ 53 * 2 ^ k := Nat.mul_le_mul hm.le (Nat.pow_le_pow_right (by decide) hk)
  · have hround : roundHalfEven (mantissa * 10 ^ places) (2 ^ (-exponent).toNat) ≤
        mantissa * 10 ^ places + 1 := by
      have hdiv := Nat.div_le_self (mantissa * 10 ^ places) (2 ^ (-exponent).toNat)
      rw [roundHalfEven]
      split_ifs <;> omega
    calc roundHalfEven (mantissa * 10 ^ places) (2 ^ (-exponent).toNat) / 10 ^ places
      _ ≤ (mantissa * 10 ^ places + 10 ^ places) / 10 ^ places :=
        Nat.div_le_div_right (hround.trans (Nat.add_le_add_left hpos _))
      _ = mantissa + 1 := by rw [← Nat.succ_mul, Nat.mul_div_cancel _ hpos]
      _ ≤ 2 ^ 53 := hm
      _ ≤ 2 ^ 53 * 2 ^ k := Nat.le_mul_of_pos_right _ (Nat.pow_pos (by decide))

theorem length_fixed_le {places : ℕ} (hplaces : 0 < places) (d : Double) :
    (d.fixed places).length ≤ 312 + places := by
  cases d with
  | finite minus mantissa exponent hexp =>
    have hwhole : Double.scaled places mantissa exponent / 10 ^ places < 10 ^ 310 :=
      (scaled_div_le mantissa.isLt (Int.toNat_le.mpr hexp)).trans_lt (by decide +kernel)
    have hint := length_printInt_le minus (by decide) hwhole
    have hfrac := (Nat.length_toDigits_le_iff (b := 10) (by decide) hplaces).mpr
      (Nat.mod_lt (Double.scaled places mantissa exponent) (Nat.pow_pos (by decide)))
    rw [Double.fixed, List.length_append, List.length_cons, List.length_leftpad]
    omega
  | infinite minus => cases minus <;> (simp [Double.fixed]; omega)
  | nan minus => cases minus <;> (simp [Double.fixed]; omega)

theorem length_startMessage_lt {videoPath : List UInt8} (h : videoPath.length < maxPathLength)
    (duration fps : Double) (loop : ℤ) (frameInterval : Int32) :
    (startMessage videoPath duration fps loop frameInterval).length < maxMsgSize := by
  have hduration := length_fixed_le (by decide : 0 < 3) duration
  have hfps := length_fixed_le (by decide : 0 < 2) fps
  have hloop : (ascii (if loop ≠ 0 then "true" else "false")).length ≤ 5 := by
    split_ifs <;> decide
  have hinterval : (printed frameInterval).length ≤ 11 := by
    refine length_printInt_le _ (by decide) ?_
    have hlow := frameInterval.le_toInt
    have hhigh := frameInterval.toInt_lt
    omega
  have hhead : (ascii "\x7b\"cmd\":\"start\",\"video_path\":\"").length = 29 := by decide
  have hparts : (ascii "\",\"duration_sec\":").length = 17 ∧ (ascii ",\"fps\":").length = 7 ∧
      (ascii ",\"loop\":").length = 8 ∧ (ascii ",\"frame_interval\":").length = 18 ∧
      (ascii "\x7d\n").length = 2 := by decide
  simp only [startMessage, List.length_append, length_encode_printable (printable_fixed _ _), hhead,
    hparts, maxPathLength, maxMsgSize] at h ⊢
  rw [printed] at hinterval ⊢
  rw [length_encode_printable (printable_printInt _ _)]
  omega

/-- Nothing ends the line or has to be escaped for being a control character. -/
def NoControl (text : List Char) : Prop := ∀ c ∈ text, 32 ≤ c.toNat

instance (text : List Char) : Decidable (NoControl text) :=
  show Decidable (∀ c ∈ text, 32 ≤ c.toNat) from List.decidableBAll _ text

theorem noControl_of_printable {text : List Char} (h : Printable text) : NoControl text :=
  fun c hc => (h c hc).1

theorem NoControl.append {text text' : List Char} (h : NoControl text) (h' : NoControl text') :
    NoControl (text ++ text') := List.forall_mem_append.mpr ⟨h, h'⟩

theorem NoControl.cons {c : Char} {text : List Char} (hc : 32 ≤ c.toNat) (h : NoControl text) :
    NoControl (c :: text) := List.forall_mem_cons.mpr ⟨hc, h⟩

theorem NoControl.member {key rest : List Char} (hkey : NoControl key) (hrest : NoControl rest) :
    NoControl ('"' :: (key ++ '"' :: ':' :: rest)) :=
  .cons (by decide) (hkey.append (.cons (by decide) (.cons (by decide) hrest)))

theorem noControl_durationMember (duration fps : Double) (loop : ℤ) (frameInterval : Int32) :
    NoControl (durationMember duration fps loop frameInterval) := by
  have hinterval : NoControl (intervalMember frameInterval) :=
    .member (by decide) ((noControl_of_printable (printable_printInt _ _)).append (by decide))
  have hbool : NoControl (if loop ≠ 0 then "true" else "false").toList := by
    split_ifs <;> decide
  have hloop : NoControl (loopMember loop frameInterval) :=
    .member (by decide) (hbool.append (.cons (by decide) hinterval))
  have hfps : NoControl (fpsMember fps loop frameInterval) :=
    .member (by decide)
      ((noControl_of_printable (printable_fixed 2 fps)).append (.cons (by decide) hloop))
  exact .member (by decide)
    ((noControl_of_printable (printable_fixed 3 duration)).append (.cons (by decide) hfps))

/-- A path without control characters stays on one line. -/
theorem lf_notMem_startLine (duration fps : Double) (loop : ℤ) (frameInterval : Int32)
    {text : List Char} (h : NoControl text) :
    lf ∉ Utf8.encode (startLine duration fps loop frameInterval text) := by
  have hpath : NoControl (pathMember duration fps loop frameInterval text) :=
    .member (by decide) (.cons (by decide) (h.append (.cons (by decide) (.cons (by decide)
      (noControl_durationMember duration fps loop frameInterval)))))
  have hcmd : NoControl ('"' :: ("start".toList ++ '"' :: ',' ::
      pathMember duration fps loop frameInterval text)) :=
    .cons (by decide) (.append (by decide) (.cons (by decide) (.cons (by decide) hpath)))
  have hline : NoControl (startLine duration fps loop frameInterval text) :=
    .cons (by decide) (.member (by decide) hcmd)
  rw [Utf8.mem_encode_iff (by decide)]
  rintro ⟨c, hc, heq⟩
  have hle := hline c hc
  rw [heq] at hle
  exact absurd hle (by decide)

/-! ## The command and the path -/

theorem videoPath_of_configLoad {file : Option (List UInt8)} {config : StreamingConfig}
    (h : configLoad file = some config) :
    quote ∉ config.videoPath ∧ config.videoPath.length < maxPathLength := by
  obtain ⟨bytes, -, h⟩ := Option.bind_eq_some_iff.mp h
  split_ifs at h with hsize
  cases h
  cases hread : jsonGetString (bytes.takeWhile (· ≠ 0)) (ascii "video_path") maxPathLength with
  | none => exact ⟨List.not_mem_nil, Nat.zero_lt_succ 511⟩
  | some value =>
    obtain ⟨hquote, hlen, -⟩ := jsonGetString_eq_some hread (by decide)
    exact ⟨hquote, hlen⟩

/-- The characters of a path stand for themselves if its bytes need no escape. -/
theorem plain_iff {text : List Char} (hquote : quote ∉ Utf8.encode text) :
    PlainText text ↔ ∀ b ∈ Utf8.encode text, 32 ≤ b ∧ b ≠ 92 := by
  constructor
  · intro h b hb
    by_cases hascii : b.toNat < 128
    · obtain ⟨c, hc, heq⟩ := (Utf8.mem_encode_iff hascii).mp hb
      obtain ⟨-, hback, hcontrol⟩ := h c hc
      refine ⟨UInt8.le_iff_toNat_le.mpr (heq ▸ hcontrol), ?_⟩
      rintro rfl
      exact hback (Char.toNat_inj.mp heq)
    · refine ⟨UInt8.le_iff_toNat_le.mpr ?_, ?_⟩
      · change 32 ≤ b.toNat
        omega
      · rintro rfl
        exact hascii (by decide)
  · intro h c hc
    refine ⟨?_, ?_, ?_⟩
    · rintro rfl
      exact hquote ((Utf8.mem_encode_iff (by decide)).mpr ⟨'"', hc, rfl⟩)
    · rintro rfl
      exact (h 92 ((Utf8.mem_encode_iff (by decide)).mpr ⟨'\\', hc, rfl⟩)).2 rfl
    · by_contra hlt
      have hnat : (UInt8.ofNat c.toNat).toNat = c.toNat := by
        rw [UInt8.toNat_ofNat']
        exact Nat.mod_eq_of_lt (by omega)
      have hmem : UInt8.ofNat c.toNat ∈ Utf8.encode text :=
        (Utf8.mem_encode_iff (by omega)).mpr ⟨c, hc, hnat.symm⟩
      have hle := UInt8.le_iff_toNat_le.mp (h _ hmem).1
      rw [hnat] at hle
      exact hlt hle

theorem delivers_startMessage {text : List Char} (hplain : PlainText text)
    {duration fps : Double} (hduration : duration.IsFinite) (hfps : fps.IsFinite) (loop : ℤ)
    (frameInterval : Int32) :
    Delivers (startMessage (Utf8.encode text) duration fps loop frameInterval) (Utf8.encode text)
      loop frameInterval := by
  obtain ⟨fuel, hloads⟩ := loads_startLine duration fps loop frameInterval text
  rw [parse_pathMember fuel duration fps loop frameInterval hplain hduration hfps] at hloads
  have hcontrol : NoControl text := fun c hc => (hplain c hc).2.2
  exact ⟨_, _, _, text, startMessage_eq duration fps loop frameInterval text,
    lf_notMem_startLine duration fps loop frameInterval hcontrol, Utf8.decode_encode _, hloads,
    rfl, rfl, rfl, rfl⟩

/-- The characters of a line that is read as a command. -/
theorem line_eq {videoPath body : List UInt8} {text line : List Char} {duration fps : Double}
    {loop : ℤ} {frameInterval : Int32} (htext : Utf8.encode text = videoPath)
    (hbody : startMessage videoPath duration fps loop frameInterval = body ++ [lf])
    (hline : Utf8.decode body = some line) :
    line = startLine duration fps loop frameInterval text := by
  rw [← htext, startMessage_eq] at hbody
  rw [Utf8.decode_eq_some_iff, ← List.append_cancel_right hbody] at hline
  exact Utf8.encode_injective hline

theorem of_delivers_startMessage {videoPath : List UInt8} (hquote : quote ∉ videoPath)
    {duration fps : Double} {loop : ℤ} {frameInterval : Int32}
    (h : Delivers (startMessage videoPath duration fps loop frameInterval) videoPath loop
      frameInterval) :
    Transparent videoPath ∧ duration.IsFinite ∧ fps.IsFinite := by
  obtain ⟨body, line, members, text, hbody, -, hline, hloads, hpath, htext, -, -⟩ := h
  subst htext
  rw [line_eq rfl hbody hline] at hloads
  obtain ⟨fuel, hstart⟩ := loads_startLine duration fps loop frameInterval text
  rw [hstart] at hloads
  obtain ⟨⟨read, rest⟩, hread, hobject⟩ := Option.bind_eq_some_iff.mp hloads
  have hquote' : '"' ∉ text := fun hmem =>
    hquote ((Utf8.mem_encode_iff (by decide)).mpr ⟨'"', hmem, rfl⟩)
  obtain ⟨hduration, hfps, units, rfl, hor⟩ := of_parse_pathMember fuel duration fps loop
    frameInterval hquote' hread
  dsimp only at hobject
  split_ifs at hobject
  cases hobject
  have hfound : some (string (joinSurrogates units)) = some (string (codes text)) := hpath
  have hunits : joinSurrogates units = codes text := Json.string.inj (Option.some.inj hfound)
  have hplain : PlainText text := by
    refine hor.resolve_right fun hlt => ?_
    have hlen := length_joinSurrogates units
    rw [hunits, codes, List.length_map] at hlen
    omega
  refine ⟨⟨?_, (plain_iff hquote).mp hplain⟩, hduration, hfps⟩
  rw [Utf8.decode_encode]
  rfl

/-- The command survives exactly if nothing in the path and the numbers needs another spelling. -/
theorem start_command_iff {file : Option (List UInt8)} {config : StreamingConfig}
    (hload : configLoad file = some config) {conn : IPCConnection} (hconn : conn.clientFd ≠ none)
    (duration fps : Double) (loop : ℤ) (frameInterval : Int32) :
    (∃ msg, ipcSendStart conn config.videoPath duration fps loop frameInterval = some msg ∧
      Delivers msg config.videoPath loop frameInterval) ↔
    Transparent config.videoPath ∧ duration.IsFinite ∧ fps.IsFinite := by
  obtain ⟨hquote, hlen⟩ := videoPath_of_configLoad hload
  have hsent : ipcSendStart conn config.videoPath duration fps loop frameInterval =
      some (startMessage config.videoPath duration fps loop frameInterval) := by
    rw [ipcSendStart, if_neg hconn]
    exact if_neg (Nat.not_le.mpr (length_startMessage_lt hlen duration fps loop frameInterval))
  constructor
  · rintro ⟨msg, hmsg, hdelivers⟩
    cases hsent.symm.trans hmsg
    exact of_delivers_startMessage hquote hdelivers
  · rintro ⟨⟨hutf8, hbytes⟩, hduration, hfps⟩
    obtain ⟨text, htext⟩ := Option.isSome_iff_exists.mp hutf8
    rw [Utf8.decode_eq_some_iff] at htext
    rw [← htext] at hquote hbytes
    refine ⟨_, hsent, htext ▸ ?_⟩
    exact delivers_startMessage ((plain_iff hquote).mpr hbytes) hduration hfps loop frameInterval

def connected : IPCConnection := (ipcAcceptClient (ipcServerInit (some 3)).2 (some 4) true).2

def someSeconds : Double := .finite false 25 (-1) (by decide)
def someRate : Double := .finite false 25 0 (by decide)

theorem start_command_iff_accented :
    ∃ msg, ipcSendStart connected (ascii "/tmp/é.mp4") someSeconds someRate 1 20 = some msg ∧
      Delivers msg (ascii "/tmp/é.mp4") 1 20 := by
  have hload : configLoad (some (ascii "\x7b\"video_path\": \"/tmp/é.mp4\"\x7d")) =
      some { configInitDefaults with videoPath := ascii "/tmp/é.mp4" } := by decide +kernel
  have hconn : connected.clientFd ≠ none := nofun
  refine (start_command_iff hload hconn someSeconds someRate 1 20).mpr
    ⟨⟨?_, by decide +kernel⟩, trivial, trivial⟩
  exact Option.isSome_iff_exists.mpr ⟨_, Utf8.decode_encode _⟩

/-- An escaped backslash is pasted with its escape. -/
theorem backslash_read_differently : ¬ ∀ (file : Option (List UInt8)) (config : StreamingConfig),
    configLoad file = some config → config.videoPath ≠ [] → ∀ conn : IPCConnection,
    conn.clientFd ≠ none → ∀ duration fps : Double, duration.IsFinite → fps.IsFinite →
    ∀ (loop : ℤ) (frameInterval : Int32),
      ∃ msg, ipcSendStart conn config.videoPath duration fps loop frameInterval = some msg ∧
        Delivers msg config.videoPath loop frameInterval := by
  intro h
  have hload : configLoad (some (ascii "\x7b\"video_path\": \"/tmp/a\\\\b.mp4\"\x7d")) =
      some { configInitDefaults with videoPath := ascii "/tmp/a\\\\b.mp4" } := by decide +kernel
  obtain ⟨msg, hmsg, hdelivers⟩ := h _ _ hload (by decide) connected nofun someSeconds someRate
    trivial trivial 1 20
  have hsent : ipcSendStart connected (ascii "/tmp/a\\\\b.mp4") someSeconds someRate 1 20 =
      some (startMessage (ascii "/tmp/a\\\\b.mp4") someSeconds someRate 1 20) := by
    rw [ipcSendStart, if_neg nofun]
    exact if_neg (Nat.not_le.mpr (length_startMessage_lt (by decide) _ _ _ _))
  cases hsent.symm.trans hmsg
  obtain ⟨⟨-, hbytes⟩, -, -⟩ := of_delivers_startMessage (by decide) hdelivers
  exact (hbytes 92 (by decide)).2 rfl

end SnipeIt.Ipc
