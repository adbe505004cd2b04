import SnipeIt.Config.Search

/-! # What the configuration reader makes of a file of the schema

Behind the key the reader is right about numbers and truth values, and copies a
string as it is written.
-/

namespace SnipeIt.Config
open Support CString Document

theorem leadingNumber_decimal (n : ℕ) {b : UInt8} (rest : List UInt8) (hb : isDigit b = false) :
    leadingNumber (decimal n ++ b :: rest) = n := by
  have htake : (decimal n ++ b :: rest).takeWhile isDigit = decimal n := by
    rw [List.takeWhile_append_of_pos fun c hc => isDigit_of_mem_decimal hc,
      List.takeWhile_cons_of_neg (by simp [hb]), List.append_nil]
  rw [leadingNumber, htake, decimal_eq, List.foldl_map]
  calc (Nat.toDigits 10 n).foldl (fun m c => 10 * m + (c.val.toUInt8.toNat - 48)) 0
    _ = (Nat.toDigits 10 n).foldl (fun m c => 10 * m + (c.toNat - 48)) 0 := by
      refine List.foldl_ext _ _ _ fun m c hc => ?_
      rw [toNat_digit (Nat.isDigit_of_mem_toDigits (by decide) (by decide) hc)]
    _ = Nat.ofDigitChars 10 (Nat.toDigits 10 n) 0 := Nat.ofDigitChars_eq_foldl.symm
    _ = n := Nat.ofDigitChars_ten_toDigits

theorem toInt_eq {n : ℤ} (hlow : -2 ^ 31 ≤ n) (hhigh : n < 2 ^ 31) : toInt n = n := by
  have hclamp : max (-2 ^ 63) (min n (2 ^ 63 - 1)) = n := by omega
  rw [toInt, hclamp]
  exact Int.bmod_eq_of_le (by omega) (by omega)

theorem isspace_digit {b : UInt8} (h : isDigit b) : isspace b = false := by
  simp only [isDigit, Bool.and_eq_true, decide_eq_true_eq, UInt8.le_iff_toNat_le] at h
  simp only [isspace, Bool.or_eq_false_iff, Bool.and_eq_false_iff, decide_eq_false_iff_not,
    UInt8.le_iff_toNat_le]
  have h48 : 48 ≤ b.toNat := h.1
  refine ⟨?_, .inr fun hle => ?_⟩
  · rintro rfl
    exact absurd h48 (by decide)
  · have h13 : b.toNat ≤ 13 := hle
    omega

theorem skipWhitespace_append (ws : Blank) {b : UInt8} (rest : List UInt8)
    (hb : isspace b = false) :
    skipWhitespace (ws.1 ++ b :: rest) = b :: rest := by
  have hws : ∀ c ∈ ws.1, isspace c := by
    intro c hc
    rcases eq_of_isBlank (ws.2 c hc) with rfl | rfl | rfl | rfl <;> decide
  rw [skipWhitespace, List.dropWhile_append_of_pos hws, List.dropWhile_cons_of_neg (by simp [hb])]

theorem render_int_eq_cons (neg : Bool) (n : ℕ) :
    ∃ b rest, (JsonValue.int neg n).render = b :: rest ∧ isspace b = false := by
  cases neg with
  | true => exact ⟨45, decimal n, rfl, by decide⟩
  | false =>
    obtain ⟨d, digits, hdigits, hd⟩ := decimal_eq_cons n
    exact ⟨d, digits, hdigits, isspace_digit hd⟩

theorem atoi_render (neg : Bool) (n : ℕ) {b : UInt8} (rest : List UInt8) (hb : isDigit b = false) :
    atoi ((JsonValue.int neg n).render ++ b :: rest) = toInt (if neg then -n else n) := by
  cases neg with
  | true =>
    change toInt (-leadingNumber (decimal n ++ b :: rest)) = toInt (-n)
    rw [leadingNumber_decimal n rest hb]
  | false =>
    obtain ⟨d, digits, hdigits, hd⟩ := decimal_eq_cons n
    have hnumber := leadingNumber_decimal n rest hb
    change atoi (decimal n ++ b :: rest) = toInt n
    rw [hdigits, List.cons_append] at hnumber ⊢
    have hspace : skipWhitespace (d :: (digits ++ b :: rest)) = d :: (digits ++ b :: rest) :=
      skipWhitespace_append ⟨[], fun _ h => nomatch h⟩ _ (isspace_digit hd)
    rw [atoi, hspace, ← hnumber]
    split
    · next heq =>
      cases heq
      cases hd
    · next heq =>
      cases heq
      cases hd
    · rfl

section

variable {doc : Document} {key : List UInt8}

theorem strstr_render (key : List UInt8) (doc : Document) :
    strstr (searchKey key) doc.render =
      strstr (searchKey key) (renderRest doc.trail doc.members) := by
  have hlead : quote ∉ doc.lead.1 := doc.lead.notMem (by decide)
  rw [Document.render, strstr_between hlead, strstr_sign (by decide)]
  cases doc.members with
  | nil => exact strstr_between (doc.inner.notMem (by decide))
  | cons m members => exact (strstr_sign (by decide)).symm

/-- After the colon comes the value of the member that counts, and then no digit. -/
theorem findColon_render (hkey : IsName key) (h : Unmistakable key doc.members) :
    (lookup key doc.members = none ∧ findColon doc.render key = none) ∨
    ∃ (value : JsonValue) (ws : Blank) (c : UInt8) (rest : List UInt8),
      lookup key doc.members = some value ∧ isDigit c = false ∧
      findColon doc.render key = some (colon :: (ws.1 ++ (value.render ++ c :: rest))) := by
  rcases stopsAtKey_of_unmistakable doc.trail hkey h with
    ⟨hnone, hfound⟩ | ⟨before, m, later, hmembers, hm, hlast, hfound⟩
  · refine .inl ⟨lookup_eq_none hnone, ?_⟩
    rw [findColon, strstr_render, hfound]
    rfl
  · have hwritten : renderItems m.key = key := key_of_strstr hkey hfound
    obtain ⟨c, rest, hnext, hc⟩ : ∃ c rest,
        m.after.1 ++ renderRest doc.trail later = c :: rest ∧ isDigit c = false := by
      obtain ⟨b, rest, hrest, hb⟩ := renderRest_eq_cons doc.trail later
      obtain ⟨ws, hws⟩ := m.after
      cases ws with
      | nil => exact ⟨b, rest, hrest, by rcases hb with rfl | rfl <;> decide⟩
      | cons c ws =>
        refine ⟨c, ws ++ renderRest doc.trail later, rfl, ?_⟩
        rcases eq_of_isBlank (hws c List.mem_cons_self) with rfl | rfl | rfl | rfl <;> decide
    refine .inr ⟨m.value, m.afterColon, c, rest, ?_, hc, ?_⟩
    · rw [hmembers]
      exact lookup_append_cons hm hlast
    · rw [findColon, strstr_render, hfound, hwritten]
      calc strchr colon ((quote :: (key ++ quote :: (m.renderValue ++
            renderRest doc.trail later))).drop (searchKey key).length)
        _ = strchr colon (m.renderValue ++ renderRest doc.trail later) := by simp [searchKey]
        _ = some (colon :: (m.afterColon.1 ++ (m.value.render ++ c :: rest))) := by
          rw [Member.renderValue_append, hnext]
          exact strchr_append (m.beforeColon.notMem (by decide))

/-! ## The values -/

theorem renderItems_unescaped {items : List StringItem} (h : Unescaped items) :
    renderItems items = decodeItems items ∧ quote ∉ renderItems items := by
  induction items with
  | nil => exact ⟨rfl, List.not_mem_nil⟩
  | cons item items ih =>
    obtain ⟨b, hb, rfl⟩ := h item List.mem_cons_self
    obtain ⟨hdecode, hquote⟩ := ih fun item' hitem' => h item' (List.mem_cons_of_mem _ hitem')
    refine ⟨congrArg (b :: ·) hdecode, fun hmem => ?_⟩
    rcases List.mem_cons.mp hmem with heq | hmem
    · exact hb.2.1 heq.symm
    · exact hquote hmem

theorem jsonGetString_render (hkey : IsName key) (h : Unmistakable key doc.members) {size : ℕ}
    (hvalue : ∀ value, lookup key doc.members = some value → ∃ items, value = .string items ∧
      Unescaped items ∧ (decodeItems items).length < size) :
    (jsonGetString doc.render key size).map Setting.text =
      (lookup key doc.members).map JsonValue.denote := by
  rcases findColon_render hkey h with ⟨hlookup, hnone⟩ | ⟨value, ws, c, rest, hlookup, -, hfound⟩
  · rw [hlookup, jsonGetString, hnone]
    rfl
  · obtain ⟨items, rfl, hitems, hsize⟩ := hvalue value hlookup
    obtain ⟨hdecode, hquote⟩ := renderItems_unescaped hitems
    have htext : colon :: (ws.1 ++ ((JsonValue.string items).render ++ c :: rest)) =
        (colon :: ws.1) ++ quote :: (renderItems items ++ quote :: c :: rest) := by
      simp [JsonValue.render]
    have hbefore : quote ∉ colon :: ws.1 := by
      rw [List.mem_cons, not_or]
      exact ⟨by decide, ws.notMem (by decide)⟩
    have hstart : strchr quote (colon :: (ws.1 ++ ((JsonValue.string items).render ++ c :: rest))) =
        some (quote :: (renderItems items ++ quote :: c :: rest)) := by
      rw [htext]
      exact strchr_append hbefore
    rw [jsonGetString_between hfound hstart rfl hquote, hlookup, hdecode,
      if_neg (Nat.not_le.mpr hsize), List.take_length]
    rfl

theorem jsonGetInt_render (hkey : IsName key) (h : Unmistakable key doc.members)
    (hvalue : ∀ value, lookup key doc.members = some value → ∃ neg n, value = .int neg n ∧
      -2 ^ 31 ≤ (if neg then -n else n : ℤ) ∧ (if neg then -n else n : ℤ) < 2 ^ 31) :
    (jsonGetInt doc.render key).map Setting.int =
      (lookup key doc.members).map JsonValue.denote := by
  rcases findColon_render hkey h with ⟨hlookup, hnone⟩ | ⟨value, ws, c, rest, hlookup, hc, hfound⟩
  · rw [hlookup, jsonGetInt, hnone]
    rfl
  · obtain ⟨neg, n, rfl, hlow, hhigh⟩ := hvalue value hlookup
    have hatoi : atoi (skipWhitespace (ws.1 ++ ((JsonValue.int neg n).render ++ c :: rest))) =
        (if neg then -n else n : ℤ) := by
      obtain ⟨b, digits, hrender, hb⟩ := render_int_eq_cons neg n
      have hskip : skipWhitespace (ws.1 ++ ((JsonValue.int neg n).render ++ c :: rest)) =
          (JsonValue.int neg n).render ++ c :: rest := by
        rw [hrender]
        exact skipWhitespace_append ws _ hb
      rw [hskip, atoi_render neg n rest hc, toInt_eq hlow hhigh]
    rw [jsonGetInt, hfound, hlookup]
    exact congrArg (some ∘ Setting.int) hatoi

theorem jsonGetBool_render (hkey : IsName key) (h : Unmistakable key doc.members)
    (hvalue : ∀ value, lookup key doc.members = some value → ∃ b, value = .bool b) :
    (jsonGetBool doc.render key).map Setting.bool =
      (lookup key doc.members).map JsonValue.denote := by
  rcases findColon_render hkey h with ⟨hlookup, hnone⟩ | ⟨value, ws, c, rest, hlookup, hc, hfound⟩
  · rw [hlookup, jsonGetBool, hnone]
    rfl
  · obtain ⟨b, rfl⟩ := hvalue value hlookup
    have htrue : decide ((skipWhitespace (ws.1 ++ ((JsonValue.bool b).render ++ c :: rest))).take
        4 = ascii "true") = b := by
      cases b with
      | true =>
        have hskip := skipWhitespace_append ws (114 :: 117 :: 101 :: c :: rest)
          (show isspace 116 = false by decide)
        exact decide_eq_true (congrArg (List.take 4) hskip)
      | false =>
        have hskip := skipWhitespace_append ws (97 :: 108 :: 115 :: 101 :: c :: rest)
          (show isspace 102 = false by decide)
        refine decide_eq_false fun heq => ?_
        have hfalse := (congrArg (List.take 4) hskip).symm.trans heq
        exact absurd (List.cons.inj hfalse).1 (by decide)
    rw [jsonGetBool, hfound, hlookup]
    exact congrArg (some ∘ Setting.bool) htrue

end

/-! ## The whole file -/

theorem zero_notMem_renderItems (items : List StringItem) : 0 ∉ renderItems items := by
  have hhex (x : HexDigit) : (0 : UInt8) ≠ x.1 := fun heq => absurd x.2 (heq ▸ by decide)
  intro h
  obtain ⟨item, -, hmem⟩ := List.mem_flatMap.mp h
  cases item with
  | plain b hb =>
    have hzero : 0 = b := List.mem_singleton.mp hmem
    exact absurd hb.1 (hzero ▸ by decide)
  | escape e => cases e <;> exact absurd hmem (by decide)
  | unicode a b c d =>
    simp only [StringItem.render, List.mem_cons, List.not_mem_nil, or_false] at hmem
    rcases hmem with hmem | hmem | hmem | hmem | hmem | hmem
    · exact absurd hmem (by decide)
    · exact absurd hmem (by decide)
    · exact hhex a hmem
    · exact hhex b hmem
    · exact hhex c hmem
    · exact hhex d hmem

theorem zero_notMem_value (value : JsonValue) : 0 ∉ value.render := by
  cases value with
  | string items =>
    simp only [JsonValue.render, List.mem_append, List.mem_cons, List.not_mem_nil, or_false, not_or]
    exact ⟨⟨by decide, zero_notMem_renderItems items⟩, by decide⟩
  | int neg n =>
    exact notMem_int neg n (by decide) (by decide)
  | bool b => cases b <;> decide

theorem zero_notMem_member (m : Member) : 0 ∉ m.render := by
  have hblank (ws : Blank) : 0 ∉ ws.1 := ws.notMem (by decide)
  simp only [Member.render, Member.renderValue, List.mem_append, List.mem_cons, not_or]
  exact ⟨hblank m.before, by decide, zero_notMem_renderItems m.key, by decide,
    hblank m.beforeColon, by decide, hblank m.afterColon, zero_notMem_value m.value, hblank m.after⟩

theorem zero_notMem_rest (trail : Blank) (members : List Member) :
    0 ∉ renderRest trail members := by
  induction members with
  | nil =>
    rw [renderRest, List.mem_cons, not_or]
    exact ⟨by decide, trail.notMem (by decide)⟩
  | cons m members ih =>
    rw [renderRest, List.mem_cons, List.mem_append, not_or, not_or]
    exact ⟨by decide, zero_notMem_member m, ih⟩

theorem zero_notMem_render (doc : Document) : 0 ∉ doc.render := by
  rw [Document.render, List.mem_append, List.mem_cons, not_or, not_or]
  refine ⟨doc.lead.notMem (by decide), by decide, ?_⟩
  cases doc.members with
  | nil =>
    rw [List.mem_append, List.mem_cons, not_or, not_or]
    exact ⟨doc.inner.notMem (by decide), by decide, doc.trail.notMem (by decide)⟩
  | cons m members =>
    rw [List.mem_append, not_or]
    exact ⟨zero_notMem_member m, zero_notMem_rest doc.trail members⟩

theorem exists_items {key : Key} {value : JsonValue} (h : key.Fits value.denote)
    (hkey : key ∈ [Key.videoPath, .mediamtxPath, .mediamtxConfig, .rtspStreamName]) :
    ∃ items, value = .string items ∧ (decodeItems items).length < key.size := by
  simp only [List.mem_cons, List.not_mem_nil, or_false] at hkey
  cases value with
  | string items => exact ⟨items, rfl, by rcases hkey with rfl | rfl | rfl | rfl <;> exact h⟩
  | int neg n => rcases hkey with rfl | rfl | rfl | rfl <;> exact h.elim
  | bool b => rcases hkey with rfl | rfl | rfl | rfl <;> exact h.elim

theorem exists_int {key : Key} {value : JsonValue} (h : key.Fits value.denote)
    (hkey : key ∈ [Key.websocketPort, .rtspPort, .detectionFrameInterval]) :
    ∃ neg n, value = .int neg n ∧
      -2 ^ 31 ≤ (if neg then -n else n : ℤ) ∧ (if neg then -n else n : ℤ) < 2 ^ 31 := by
  simp only [List.mem_cons, List.not_mem_nil, or_false] at hkey
  cases value with
  | string items => rcases hkey with rfl | rfl | rfl <;> exact h.elim
  | int neg n => exact ⟨neg, n, rfl, by rcases hkey with rfl | rfl | rfl <;> exact h⟩
  | bool b => rcases hkey with rfl | rfl | rfl <;> exact h.elim

theorem exists_bool {value : JsonValue} (h : Key.loopVideo.Fits value.denote) :
    ∃ b, value = .bool b := by
  cases value with
  | string items => exact h.elim
  | int neg n => exact h.elim
  | bool b => exact ⟨b, rfl⟩

/-- A file in which every key is unmistakable and no recognised string has escapes is read right. -/
theorem config_load_faithful {doc : Document} (hschema : doc.InSchema)
    (hsize : doc.render.length ≤ 65536) (hplain : doc.IsPlain) :
    ∃ config, configLoad (some doc.render) = some config ∧ doc.Configures config := by
  have hlen : ¬ (doc.render.length = 0 ∨ 65536 < doc.render.length) := by
    have hpos : 0 < doc.render.length := List.length_pos_iff.mpr (by simp [Document.render])
    omega
  have htext : doc.render.takeWhile (· ≠ 0) = doc.render := by
    refine List.takeWhile_eq_self_iff.mpr fun b hb => decide_eq_true ?_
    rintro rfl
    exact zero_notMem_render doc hb
  have hfits (key : Key) (value) (h : lookup key.name doc.members = some value) :
      key.Fits value.denote := by
    obtain ⟨m, hm, hname, rfl⟩ := exists_of_lookup h
    exact hschema.fits m hm key hname
  have hstring (key : Key) (default : List UInt8)
      (hkey : key ∈ [Key.videoPath, .mediamtxPath, .mediamtxConfig, .rtspStreamName]) :
      .text ((jsonGetString doc.render key.name key.size).getD default) =
        ((lookup key.name doc.members).map JsonValue.denote).getD (.text default) := by
    rw [← jsonGetString_render key.isName (hplain.unmistakable key), Option.getD_map]
    intro value h
    obtain ⟨items, rfl, hitems⟩ := exists_items (hfits key value h) hkey
    exact ⟨items, rfl, hplain.unescaped key items h, hitems⟩
  have hint (key : Key) (default : ℤ)
      (hkey : key ∈ [Key.websocketPort, .rtspPort, .detectionFrameInterval]) :
      .int ((jsonGetInt doc.render key.name).getD default) =
        ((lookup key.name doc.members).map JsonValue.denote).getD (.int default) := by
    rw [← jsonGetInt_render key.isName (hplain.unmistakable key), Option.getD_map]
    exact fun value h => exists_int (hfits key value h) hkey
  simp only [configLoad, Option.bind_eq_bind, Option.bind_some, if_neg hlen, htext, Option.pure_def]
  refine ⟨_, rfl, fun key => ?_⟩
  cases key with
  | videoPath => exact hstring .videoPath _ (by decide)
  | mediamtxPath => exact hstring .mediamtxPath _ (by decide)
  | mediamtxConfig => exact hstring .mediamtxConfig _ (by decide)
  | rtspStreamName => exact hstring .rtspStreamName _ (by decide)
  | websocketPort => exact hint .websocketPort _ (by decide)
  | rtspPort => exact hint .rtspPort _ (by decide)
  | detectionFrameInterval => exact hint .detectionFrameInterval _ (by decide)
  | loopVideo =>
    refine (Option.getD_map _ _ _).symm.trans (congrArg (Option.getD · _)
      (jsonGetBool_render Key.loopVideo.isName (hplain.unmistakable .loopVideo) ?_))
    exact fun value h => exists_bool (hfits .loopVideo value h)

/-- A string without escapes; a byte that has to be escaped is left out. -/
def written (text : String) : List StringItem :=
  (ascii text).filterMap fun b => if h : IsPlain b then some (.plain b h) else none

theorem unescaped_written (text : String) : Unescaped (written text) := by
  intro item hitem
  obtain ⟨b, -, hb⟩ := List.mem_filterMap.mp hitem
  split_ifs at hb with h
  exact ⟨b, h, (Option.some.inj hb).symm⟩

def noBlank : Blank := ⟨[], fun _ h => nomatch h⟩
def space : Blank := ⟨[32], List.forall_mem_singleton.mpr (by decide)⟩
def newline : Blank := ⟨[10], List.forall_mem_singleton.mpr (by decide)⟩

def oneLine (entries : List (String × JsonValue)) : Document where
  lead := noBlank
  inner := noBlank
  members := entries.map fun (key, value) => ⟨space, written key, noBlank, space, value, noBlank⟩
  trail := newline

/-- `{ "note": "the \"rtsp_port\" key", "rtsp_port": 9000, "video_path": "/tmp/a.mp4"}` -/
def mentioned : Document :=
  oneLine [("note", .string (written "the " ++ .escape .quote :: written "rtsp_port" ++
      .escape .quote :: written " key")),
    ("rtsp_port", .int false 9000), ("video_path", .string (written "/tmp/a.mp4"))]

theorem mentioned_inSchema : mentioned.InSchema where
  fits := by
    intro m hm key hname
    rcases List.mem_cons.mp hm with rfl | hm
    · cases key <;> exact absurd hname (by decide)
    rcases List.mem_cons.mp hm with rfl | hm
    · cases key <;> first | exact absurd hname (by decide) | exact ⟨by decide, by decide⟩
    · have hroom : (decodeItems (written "/tmp/a.mp4")).length < maxPathLength := by decide
      obtain rfl := List.mem_singleton.mp hm
      cases key <;> first | exact absurd hname (by decide) | exact hroom
  others := by
    intro m hm hname
    rcases List.mem_cons.mp hm with rfl | hm
    · exact ⟨_, rfl⟩
    rcases List.mem_cons.mp hm with rfl | hm
    · exact absurd (by decide) (hname .rtspPort)
    · obtain rfl := List.mem_singleton.mp hm
      exact ⟨_, rfl⟩

theorem mentioned_isPlain : mentioned.IsPlain where
  unmistakable key := by cases key <;> decide +kernel
  unescaped key items h := by
    by_cases hkey : key = .videoPath
    · subst hkey
      have hlookup : lookup Key.videoPath.name mentioned.members =
          some (.string (written "/tmp/a.mp4")) := by decide +kernel
      cases hlookup.symm.trans h
      exact unescaped_written _
    · have hnone : ∀ items', lookup key.name mentioned.members ≠ some (.string items') := by
        intro items'
        cases key <;> first | exact absurd rfl hkey | exact nofun
      exact absurd h (hnone items)

theorem config_load_faithful_mentioned :
    ∃ config, configLoad (some mentioned.render) = some config ∧ mentioned.Configures config :=
  config_load_faithful mentioned_inSchema (by decide +kernel) mentioned_isPlain

def titled : Document :=
  oneLine [("title", .string (written "rtsp_port")), ("websocket_port", .int false 9000)]

theorem titled_inSchema : titled.InSchema where
  fits := by
    intro m hm key hname
    rcases List.mem_cons.mp hm with rfl | hm
    · cases key <;> exact absurd hname (by decide)
    · obtain rfl := List.mem_singleton.mp hm
      cases key <;> first | exact absurd hname (by decide) | exact ⟨by decide, by decide⟩
  others := by
    intro m hm hname
    rcases List.mem_cons.mp hm with rfl | hm
    · exact ⟨_, rfl⟩
    · obtain rfl := List.mem_singleton.mp hm
      exact absurd (by decide) (hname .websocketPort)

/-- The value of `title` is taken for the key, and the next member gives the port. -/
theorem value_taken_for_key : ¬ ∀ doc : Document, doc.InSchema → doc.render.length ≤ 65536 →
    ∃ config, configLoad (some doc.render) = some config ∧ doc.Configures config := by
  intro h
  obtain ⟨config, hload, hconfig⟩ := h titled titled_inSchema (by decide +kernel)
  have hread : (configLoad (some titled.render)).map (·.rtspPort) = some 9000 := by decide +kernel
  rw [hload] at hread
  have hport : config.rtspPort = 9000 := Option.some.inj hread
  have hdefault : Setting.int config.rtspPort = .int 8554 := hconfig .rtspPort
  rw [hport] at hdefault
  exact absurd hdefault (by decide)

end SnipeIt.Config
