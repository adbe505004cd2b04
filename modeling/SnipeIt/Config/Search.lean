import SnipeIt.Config.Document

/-! # Where the search for a key stops

The reader takes the first text that looks like the quoted key for the key, be
it inside another string.
-/

namespace SnipeIt.Config
open Support CString Document

/-- An escaped quote in the string is followed by the key and the closing quote. -/
def endsInKey (key : List UInt8) : List StringItem → Bool
  | [] => false
  | .escape .quote :: items => renderItems items = key || endsInKey key items
  | _ :: items => endsInKey key items

/-- The search for the key stops at the member, but not at its key. -/
def Member.misleads (key : List UInt8) (m : Member) : Bool :=
  endsInKey key m.key ||
    match m.value with
    | .string items => renderItems items = key || endsInKey key items
    | _ => false

/-- The search for the key stops at the key of the member that counts, or nowhere if there is
none. -/
def Unmistakable (key : List UInt8) : List Member → Prop
  | [] => True
  | m :: members =>
    if renderItems m.key = key then ∀ m' ∈ members, m'.name ≠ key
    else ¬ m.misleads key ∧ (m.name = key → ∃ m' ∈ members, m'.name = key) ∧
      Unmistakable key members

instance decidableUnmistakable (key : List UInt8) :
    (members : List Member) → Decidable (Unmistakable key members)
  | [] => isTrue trivial
  | m :: members =>
    have := decidableUnmistakable key members
    inferInstanceAs (Decidable (if renderItems m.key = key then ∀ m' ∈ members, m'.name ≠ key
      else ¬ m.misleads key ∧ (m.name = key → ∃ m' ∈ members, m'.name = key) ∧
        Unmistakable key members))

/-- Every key is unmistakable, and the strings of recognised keys have no escapes. -/
structure Document.IsPlain (doc : Document) : Prop where
  unmistakable : ∀ key : Key, Unmistakable key.name doc.members
  unescaped : ∀ (key : Key) (items), lookup key.name doc.members = some (.string items) →
    Unescaped items

/-! ## Bytes of a document -/

/-- Letters and underscores, as in the recognised keys. -/
def IsName (name : List UInt8) : Prop := name ≠ [] ∧ ∀ b ∈ name, 95 ≤ b ∧ b ≤ 122

theorem Key.isName (key : Key) : IsName key.name := by
  have h : ∀ name : List UInt8, name ≠ [] → (name.all fun b => 95 ≤ b && b ≤ 122) → IsName name :=
    fun name hne hall => ⟨hne, fun b hb => by simpa using List.all_eq_true.mp hall b hb⟩
  cases key <;> exact h _ (by decide) (by decide)

section Search

variable {key : List UInt8}

theorem IsName.notMem {b : UInt8} (hkey : IsName key) (hb : b < 95 ∨ 122 < b) : b ∉ key := by
  intro hmem
  obtain ⟨hlow, hhigh⟩ := hkey.2 b hmem
  rcases hb with hb | hb
  · exact absurd hb (UInt8.not_lt.mpr hlow)
  · exact absurd hb (UInt8.not_lt.mpr hhigh)

/-- A quote ends what is written of a string only behind all its items. -/
theorem quoted_prefix_iff (items : List StringItem) (rest : List UInt8)
    (hquote : quote ∉ key) (hback : backslash ∉ key) :
    key ++ [quote] <+: renderItems items ++ quote :: rest ↔ renderItems items = key := by
  constructor
  · intro h
    induction items generalizing key with
    | nil =>
      cases key with
      | nil => rfl
      | cons b key =>
        have hb : b = quote := (List.cons_prefix_cons.mp h).1
        exact absurd (hb ▸ List.mem_cons_self) hquote
    | cons item items ih =>
      cases key with
      | nil =>
        cases item with
        | plain b hb =>
          have heq : quote = b := (List.cons_prefix_cons.mp h).1
          exact absurd heq.symm hb.2.1
        | escape e => exact absurd (List.cons_prefix_cons.mp h).1 (by decide)
        | unicode a b c d => exact absurd (List.cons_prefix_cons.mp h).1 (by decide)
      | cons c key =>
        cases item with
        | plain b hb =>
          obtain ⟨heq, htail⟩ := List.cons_prefix_cons.mp h
          have hkey : renderItems items = key :=
            ih (List.not_mem_of_not_mem_cons hquote) (List.not_mem_of_not_mem_cons hback) htail
          exact congrArg₂ List.cons heq.symm hkey
        | escape e =>
          have heq : c = backslash := (List.cons_prefix_cons.mp h).1
          exact absurd (heq ▸ List.mem_cons_self) hback
        | unicode a b c d =>
          have heq := (List.cons_prefix_cons.mp h).1
          exact absurd (heq ▸ List.mem_cons_self) hback
  · rintro rfl
    exact ⟨rest, by simp⟩

theorem strstr_between {text rest : List UInt8} (h : quote ∉ text) :
    strstr (searchKey key) (text ++ rest) = strstr (searchKey key) rest := strstr_append h

theorem strstr_sign {b : UInt8} {rest : List UInt8} (h : b ≠ quote) :
    strstr (searchKey key) (b :: rest) = strstr (searchKey key) rest :=
  strstr_skip fun hpre => h (List.cons_prefix_cons.mp hpre).1.symm

theorem Blank.notMem (ws : Blank) {b : UInt8} (h : isBlank b = false) : b ∉ ws.1 := by
  intro hb
  rw [ws.2 b hb] at h
  cases h

/-- A key does not begin behind white space and a sign. -/
theorem not_prefix_blank (hkey : IsName key) (ws : Blank) {b : UInt8} (rest : List UInt8)
    (hb : b < 95 ∨ 122 < b) : ¬ key ++ [quote] <+: ws.1 ++ b :: rest := by
  obtain ⟨c, tail, rfl⟩ := List.exists_cons_of_ne_nil hkey.1
  obtain ⟨ws, hws⟩ := ws
  cases ws with
  | nil =>
    intro h
    have hc : c = b := (List.cons_prefix_cons.mp h).1
    exact hkey.notMem hb (hc ▸ List.mem_cons_self)
  | cons d ws =>
    intro h
    have hc : c = d := (List.cons_prefix_cons.mp h).1
    have hd : d < 95 := by
      rcases eq_of_isBlank (hws d List.mem_cons_self) with rfl | rfl | rfl | rfl <;> decide
    exact hkey.notMem (.inl hd) (hc ▸ List.mem_cons_self)

theorem quote_notMem_escape {e : SimpleEscape} (h : e ≠ .quote) :
    quote ∉ (StringItem.escape e).render := by
  cases e <;> first | exact absurd rfl h | decide

theorem quote_notMem_unicode (a b c d : HexDigit) :
    quote ∉ (StringItem.unicode a b c d).render := by
  have hne (x : HexDigit) : quote ≠ x.1 := fun heq => absurd x.2 (heq ▸ by decide)
  simp only [StringItem.render, List.mem_cons, List.not_mem_nil, or_false, not_or]
  exact ⟨by decide, by decide, hne a, hne b, hne c, hne d⟩

theorem strstr_string_end {items : List StringItem} {rest : List UInt8} (hkey : IsName key)
    (hitems : endsInKey key items = false) (hrest : ¬ key ++ [quote] <+: rest) :
    strstr (searchKey key) (renderItems items ++ quote :: rest) = strstr (searchKey key) rest := by
  have hquote : quote ∉ key := hkey.notMem (.inl (by decide))
  have hback : backslash ∉ key := hkey.notMem (.inl (by decide))
  have hskip (item : StringItem) (items) (h : quote ∉ item.render) :
      strstr (searchKey key) (renderItems (item :: items) ++ quote :: rest) =
        strstr (searchKey key) (renderItems items ++ quote :: rest) := by
    rw [renderItems, List.flatMap_cons, List.append_assoc]
    exact strstr_append h
  induction items with
  | nil => exact strstr_skip fun h => hrest (List.cons_prefix_cons.mp h).2
  | cons item items ih =>
    cases item with
    | plain b hb =>
      rw [hskip _ _ (by simpa [StringItem.render] using hb.2.1.symm)]
      exact ih hitems
    | unicode a b c d =>
      rw [hskip _ _ (quote_notMem_unicode a b c d)]
      exact ih hitems
    | escape e =>
      by_cases he : e = .quote
      · -- The escaped quote is where a key could begin.
        subst he
        obtain ⟨hne, hitems'⟩ := Bool.or_eq_false_iff.mp hitems
        calc strstr (searchKey key) (backslash :: quote :: (renderItems items ++ quote :: rest))
          _ = strstr (searchKey key) (quote :: (renderItems items ++ quote :: rest)) :=
            strstr_sign (by decide)
          _ = strstr (searchKey key) (renderItems items ++ quote :: rest) := by
            refine strstr_skip fun h => of_decide_eq_false hne ?_
            exact (quoted_prefix_iff items rest hquote hback).mp (List.cons_prefix_cons.mp h).2
          _ = strstr (searchKey key) rest := ih hitems'
      · rw [hskip _ _ (quote_notMem_escape he)]
        refine ih ?_
        cases e <;> first | exact hitems | exact absurd rfl he

/-- The search goes past a string that is not the key and does not end in it. -/
theorem strstr_string {items : List StringItem} {rest : List UInt8} (hkey : IsName key)
    (hne : renderItems items ≠ key) (hitems : endsInKey key items = false)
    (hrest : ¬ key ++ [quote] <+: rest) :
    strstr (searchKey key) (quote :: (renderItems items ++ quote :: rest)) =
      strstr (searchKey key) rest := by
  rw [strstr_skip, strstr_string_end hkey hitems hrest]
  intro h
  have hquote : quote ∉ key := hkey.notMem (.inl (by decide))
  have hback : backslash ∉ key := hkey.notMem (.inl (by decide))
  exact hne ((quoted_prefix_iff items rest hquote hback).mp (List.cons_prefix_cons.mp h).2)

end Search

/-! ## The search for a key -/

theorem Member.render_append (m : Member) (rest : List UInt8) :
    m.render ++ rest = m.before.1 ++ quote :: (renderItems m.key ++ quote ::
      (m.renderValue ++ rest)) := by
  simp [Member.render]

theorem Member.renderValue_append (m : Member) (rest : List UInt8) :
    m.renderValue ++ rest = m.beforeColon.1 ++ colon ::
      (m.afterColon.1 ++ (m.value.render ++ (m.after.1 ++ rest))) := by
  simp [Member.renderValue]

theorem renderRest_eq_cons (trail : Blank) (members : List Member) :
    ∃ b rest, renderRest trail members = b :: rest ∧ (b = comma ∨ b = closeBrace) := by
  cases members with
  | nil => exact ⟨closeBrace, trail, rfl, .inr rfl⟩
  | cons m members => exact ⟨comma, m.render ++ renderRest trail members, rfl, .inl rfl⟩

theorem notMem_int (neg : Bool) (n : ℕ) {b : UInt8} (hdigit : isDigit b = false) (hb : b ≠ 45) :
    b ∉ (JsonValue.int neg n).render := by
  have hdecimal : b ∉ decimal n := fun h => by simp [isDigit_of_mem_decimal h] at hdigit
  cases neg with
  | true => exact fun h => hdecimal ((List.mem_cons.mp h).resolve_left hb)
  | false => exact hdecimal

theorem quote_notMem_bool (b : Bool) : quote ∉ (JsonValue.bool b).render := by
  cases b <;> decide

section

variable {key : List UInt8} {trail : Blank} {m : Member} {members : List Member}

theorem strstr_value (hkey : IsName key) (hmisleads : m.misleads key = false) :
    strstr (searchKey key) (m.value.render ++ (m.after.1 ++ renderRest trail members)) =
      strstr (searchKey key) (renderRest trail members) := by
  obtain ⟨b, rest, hrest, hb⟩ := renderRest_eq_cons trail members
  have hb' : b < 95 ∨ 122 < b := by rcases hb with rfl | rfl <;> decide
  have hafter : quote ∉ m.after.1 := m.after.notMem (by decide)
  have hvalue := (Bool.or_eq_false_iff.mp hmisleads).2
  cases hm : m.value with
  | int neg n =>
    rw [strstr_between (notMem_int neg n (by decide) (by decide))]
    exact strstr_between hafter
  | bool b' =>
    rw [strstr_between (quote_notMem_bool b')]
    exact strstr_between hafter
  | string items =>
    rw [hm] at hvalue
    obtain ⟨hne, hitems⟩ := Bool.or_eq_false_iff.mp hvalue
    have hnext : ¬ key ++ [quote] <+: m.after.1 ++ renderRest trail members := by
      rw [hrest]
      exact not_prefix_blank hkey m.after rest hb'
    calc strstr (searchKey key) ((quote :: renderItems items ++ [quote]) ++
          (m.after.1 ++ renderRest trail members))
      _ = strstr (searchKey key) (quote :: (renderItems items ++ quote ::
          (m.after.1 ++ renderRest trail members))) := by simp
      _ = strstr (searchKey key) (m.after.1 ++ renderRest trail members) :=
        strstr_string hkey (of_decide_eq_false hne) hitems hnext
      _ = strstr (searchKey key) (renderRest trail members) := strstr_between hafter

theorem strstr_member_skip (hkey : IsName key) (hne : renderItems m.key ≠ key)
    (hmisleads : m.misleads key = false) :
    strstr (searchKey key) (m.render ++ renderRest trail members) =
      strstr (searchKey key) (renderRest trail members) := by
  have hcolon : ¬ key ++ [quote] <+: m.renderValue ++ renderRest trail members := by
    rw [Member.renderValue_append]
    exact not_prefix_blank hkey m.beforeColon _ (.inl (by decide))
  have hquote : quote ∉ m.beforeColon.1 ++ colon :: m.afterColon.1 := by
    rw [List.mem_append, List.mem_cons, not_or, not_or]
    exact ⟨m.beforeColon.notMem (by decide), by decide, m.afterColon.notMem (by decide)⟩
  rw [Member.render_append, strstr_between (m.before.notMem (by decide)),
    strstr_string hkey hne (Bool.or_eq_false_iff.mp hmisleads).1 hcolon,
    Member.renderValue_append]
  calc strstr (searchKey key) (m.beforeColon.1 ++ colon :: (m.afterColon.1 ++
        (m.value.render ++ (m.after.1 ++ renderRest trail members))))
    _ = strstr (searchKey key) ((m.beforeColon.1 ++ colon :: m.afterColon.1) ++
        (m.value.render ++ (m.after.1 ++ renderRest trail members))) := by simp
    _ = strstr (searchKey key) (m.value.render ++ (m.after.1 ++ renderRest trail members)) :=
      strstr_between hquote
    _ = strstr (searchKey key) (renderRest trail members) := strstr_value hkey hmisleads

theorem strstr_member (hname : renderItems m.key = key) :
    strstr (searchKey key) (m.render ++ renderRest trail members) =
      some (searchKey key ++ (m.renderValue ++ renderRest trail members)) := by
  have hfound : quote :: (renderItems m.key ++ quote :: (m.renderValue ++ renderRest trail members))
      = searchKey key ++ (m.renderValue ++ renderRest trail members) := by
    simp [searchKey, hname]
  rw [Member.render_append, hfound, strstr_between (m.before.notMem (by decide))]
  exact strstr_here _ _

theorem decodeItems_of_render {items : List StringItem} (hback : backslash ∉ renderItems items) :
    decodeItems items = renderItems items ∧ Unescaped items := by
  induction items with
  | nil => exact ⟨rfl, fun _ h => nomatch h⟩
  | cons item items ih =>
    rw [renderItems, List.flatMap_cons, List.mem_append, not_or] at hback
    cases item with
    | plain b hb =>
      obtain ⟨hitems, hplain⟩ := ih hback.2
      refine ⟨congrArg (b :: ·) hitems, fun item hitem => ?_⟩
      rcases List.mem_cons.mp hitem with rfl | hitem
      · exact ⟨b, hb, rfl⟩
      · exact hplain item hitem
    | escape e => exact absurd List.mem_cons_self hback.1
    | unicode a b c d => exact absurd List.mem_cons_self hback.1

theorem lookup_eq_none (h : ∀ m ∈ members, m.name ≠ key) : lookup key members = none := by
  induction members with
  | nil => rfl
  | cons m members ih =>
    rw [lookup, ih fun m' hm' => h m' (List.mem_cons_of_mem m hm'),
      if_neg (h m List.mem_cons_self)]
    rfl

theorem lookup_append_cons {before later : List Member} (hm : m.name = key)
    (hlast : ∀ m' ∈ later, m'.name ≠ key) :
    lookup key (before ++ m :: later) = some m.value := by
  induction before with
  | nil => rw [List.nil_append, lookup, lookup_eq_none hlast, Option.none_or, if_pos hm]
  | cons m' before ih =>
    rw [List.cons_append, lookup, ih]
    rfl

/-- `Unmistakable` says where the search stops. -/
def StopsAtKey (key : List UInt8) (trail : Blank) (members : List Member) : Prop :=
  ((∀ m ∈ members, m.name ≠ key) ∧ strstr (searchKey key) (renderRest trail members) = none) ∨
  ∃ before m later, members = before ++ m :: later ∧ m.name = key ∧ (∀ m' ∈ later, m'.name ≠ key) ∧
    strstr (searchKey key) (renderRest trail members) =
      some (quote :: (renderItems m.key ++ quote :: (m.renderValue ++ renderRest trail later)))

theorem exists_of_endsInKey {items : List StringItem} (h : endsInKey key items) :
    ∃ front, renderItems items = front ++ quote :: key := by
  induction items with
  | nil => cases h
  | cons item items ih =>
    have hlater (h : endsInKey key items) :
        ∃ front, renderItems (item :: items) = front ++ quote :: key := by
      obtain ⟨front, hfront⟩ := ih h
      exact ⟨item.render ++ front, by rw [renderItems, List.flatMap_cons, ← renderItems, hfront,
        List.append_assoc]⟩
    cases item with
    | plain b hb => exact hlater h
    | unicode a b c d => exact hlater h
    | escape e =>
      by_cases he : e = .quote
      · subst he
        rcases Bool.or_eq_true_iff.mp h with h | h
        · exact ⟨[backslash], congrArg ([backslash, quote] ++ ·) (of_decide_eq_true h)⟩
        · exact hlater h
      · refine hlater ?_
        cases e <;> first | exact h | exact absurd rfl he

/-- A member that misleads has the quoted key in its text. -/
theorem exists_of_misleads (h : m.misleads key) :
    ∃ front back, m.render = front ++ (searchKey key ++ back) := by
  rcases Bool.or_eq_true_iff.mp h with h | h
  · obtain ⟨front, hfront⟩ := exists_of_endsInKey h
    refine ⟨m.before ++ quote :: front, m.renderValue, ?_⟩
    simp [Member.render, hfront, searchKey]
  · cases hm : m.value with
    | int neg n => rw [hm] at h; cases h
    | bool b => rw [hm] at h; cases h
    | string items =>
      rw [hm] at h
      have hquoted : ∃ front, quote :: renderItems items = front ++ quote :: key := by
        rcases Bool.or_eq_true_iff.mp h with h | h
        · exact ⟨[], congrArg (quote :: ·) (of_decide_eq_true h)⟩
        · obtain ⟨front, hfront⟩ := exists_of_endsInKey h
          exact ⟨quote :: front, congrArg (quote :: ·) hfront⟩
      obtain ⟨front, hfront⟩ := hquoted
      refine ⟨m.before ++ quote :: (renderItems m.key ++ quote ::
        (m.beforeColon ++ colon :: (m.afterColon ++ front))), m.after, ?_⟩
      simp [Member.render, Member.renderValue, hm, JsonValue.render, hfront, searchKey]

theorem strstr_of_misleads (trail : Blank) (members : List Member) (h : m.misleads key) :
    ∃ found, strstr (searchKey key) (m.render ++ renderRest trail members) = some found ∧
      (renderRest trail members).length < found.length := by
  obtain ⟨front, back, hrender⟩ := exists_of_misleads h
  obtain ⟨found, hfound, hle⟩ :=
    strstr_occurs (searchKey key) front (back ++ renderRest trail members)
  refine ⟨found, by rw [hrender, ← hfound]; simp, ?_⟩
  simp only [List.length_append, searchKey, List.length_cons] at hle
  omega

theorem stopsAtKey_suffix {before later : List Member} (m : Member) :
    quote :: (renderItems m.key ++ quote :: (m.renderValue ++ renderRest trail later)) <:+
      renderRest trail (before ++ m :: later) := by
  induction before with
  | nil =>
    refine ⟨comma :: m.before, ?_⟩
    simp [renderRest, Member.render]
  | cons m' before ih =>
    exact ih.trans ⟨comma :: m'.render, by simp [renderRest]⟩

/-- The search stops only at a string that is written like the key. -/
theorem key_of_strstr (hkey : IsName key) {text rest : List UInt8} {items : List StringItem}
    (h : strstr (searchKey key) text = some (quote :: (renderItems items ++ quote :: rest))) :
    renderItems items = key := by
  have hquote : quote ∉ key := hkey.notMem (.inl (by decide))
  have hback : backslash ∉ key := hkey.notMem (.inl (by decide))
  exact (quoted_prefix_iff items rest hquote hback).mp
    (List.cons_prefix_cons.mp (strstr_begins h)).2

theorem strstr_rest (m : Member) (members : List Member) :
    strstr (searchKey key) (renderRest trail (m :: members)) =
      strstr (searchKey key) (m.render ++ renderRest trail members) := strstr_sign (by decide)

theorem stopsAtKey_of_unmistakable (trail : Blank) (hkey : IsName key)
    (h : Unmistakable key members) : StopsAtKey key trail members := by
  induction members with
  | nil =>
    have hquote : quote ∉ renderRest trail [] := by
      rw [renderRest, List.mem_cons, not_or]
      exact ⟨by decide, trail.notMem (by decide)⟩
    exact .inl ⟨(fun m hm => nomatch hm), strstr_eq_none hquote⟩
  | cons m members ih =>
    rw [Unmistakable] at h
    split_ifs at h with hname
    · -- The key itself.
      have hback : backslash ∉ renderItems m.key := hname ▸ hkey.notMem (.inl (by decide))
      have hname' : m.name = key := (decodeItems_of_render hback).1.trans hname
      refine .inr ⟨[], m, members, rfl, hname', h, ?_⟩
      rw [strstr_rest, strstr_member hname]
      simp [searchKey, hname]
    · obtain ⟨hmisleads, hlater, hrest⟩ := h
      rw [StopsAtKey, strstr_rest,
        strstr_member_skip hkey hname (Bool.eq_false_iff.mpr hmisleads)]
      rcases ih hrest with ⟨hnone, hfound⟩ | ⟨before, m', later, rfl, hm', hlast, hfound⟩
      · refine .inl ⟨fun m' hm' => ?_, hfound⟩
        rcases List.mem_cons.mp hm' with rfl | hm'
        · intro heq
          obtain ⟨m'', hm'', hname''⟩ := hlater heq
          exact hnone m'' hm'' hname''
        · exact hnone m' hm'
      · exact .inr ⟨m :: before, m', later, rfl, hm', hlast, hfound⟩

/-- The key of a later member is further on than the text of a member before it. -/
theorem length_found_le (before : List Member) {later : List Member} {m : Member}
    {found : List UInt8} (h : found = quote :: (renderItems m.key ++ quote ::
      (m.renderValue ++ renderRest trail later))) :
    found.length ≤ (renderRest trail (before ++ m :: later)).length :=
  h ▸ (stopsAtKey_suffix m).length_le

theorem not_misleads_of_stopsAtKey (hkey : IsName key) (hname : renderItems m.key ≠ key)
    (h : StopsAtKey key trail (m :: members)) : ¬ m.misleads key := by
  intro hmisleads
  obtain ⟨found, hfound, hlt⟩ := strstr_of_misleads trail members hmisleads
  rw [StopsAtKey, strstr_rest, hfound] at h
  rcases h with ⟨-, h⟩ | ⟨before, m', later, hmembers, -, -, h⟩
  · cases h
  · cases before with
    | nil =>
      cases hmembers
      exact hname (key_of_strstr hkey (hfound.trans h))
    | cons m'' before =>
      cases hmembers
      exact absurd (length_found_le before (Option.some.inj h)) (Nat.not_le.mpr hlt)

theorem unmistakable_of_stopsAtKey (hkey : IsName key) (h : StopsAtKey key trail members) :
    Unmistakable key members := by
  induction members with
  | nil => exact trivial
  | cons m members ih =>
    rw [Unmistakable]
    split_ifs with hname
    · rw [StopsAtKey, strstr_rest, strstr_member hname] at h
      rcases h with ⟨-, h⟩ | ⟨before, m', later, hmembers, -, hlast, h⟩
      · cases h
      · cases before with
        | nil =>
          cases hmembers
          exact hlast
        | cons m'' before =>
          cases hmembers
          have hle := length_found_le before (Option.some.inj h)
          simp [searchKey] at hle
          omega
    · have hmisleads : ¬ m.misleads key := not_misleads_of_stopsAtKey hkey hname h
      rw [StopsAtKey, strstr_rest,
        strstr_member_skip hkey hname (Bool.eq_false_iff.mpr hmisleads)] at h
      rcases h with ⟨hnone, hfound⟩ | ⟨before, m', later, hmembers, hm', hlast, hfound⟩
      · refine ⟨hmisleads, fun heq => absurd heq (hnone m List.mem_cons_self), ih (.inl ⟨?_, ?_⟩)⟩
        · exact fun m' hm' => hnone m' (List.mem_cons_of_mem m hm')
        · exact hfound
      · cases before with
        | nil =>
          cases hmembers
          exact absurd (key_of_strstr hkey hfound) hname
        | cons m'' before =>
          cases hmembers
          exact ⟨hmisleads, fun _ => ⟨m', by simp, hm'⟩,
            ih (.inr ⟨before, m', later, rfl, hm', hlast, hfound⟩)⟩

/-- The condition leaves out no file in which the search stops at the right key. -/
theorem unmistakable_iff (hkey : IsName key) :
    Unmistakable key members ↔ StopsAtKey key trail members :=
  ⟨stopsAtKey_of_unmistakable trail hkey, unmistakable_of_stopsAtKey hkey⟩

theorem exists_of_lookup {value : JsonValue} (h : lookup key members = some value) :
    ∃ m ∈ members, m.name = key ∧ m.value = value := by
  induction members with
  | nil => cases h
  | cons m members ih =>
    rw [lookup, Option.or_eq_some_iff] at h
    rcases h with h | ⟨-, h⟩
    · obtain ⟨m', hm', hname, hvalue⟩ := ih h
      exact ⟨m', List.mem_cons_of_mem m hm', hname, hvalue⟩
    · split_ifs at h with hname
      exact ⟨m, List.mem_cons_self, hname, Option.some.inj h⟩

end

end SnipeIt.Config
