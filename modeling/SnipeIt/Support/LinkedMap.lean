import Mathlib.Data.List.Lookmap
import Mathlib.Data.List.Nodup

/-! # Maps that keep an order

A map whose entries stay in the order in which their keys were first put. Its
operations are described by what a key holds afterwards.
-/

namespace SnipeIt.Support

@[ext] structure LinkedMap (K V : Type*) where
  entries : List (K × V)
  nodup : (entries.map Prod.fst).Nodup

namespace LinkedMap

variable {K V : Type*}

/-- No entries. -/
def empty : LinkedMap K V := ⟨[], List.nodup_nil⟩

def keys (m : LinkedMap K V) : List K := m.entries.map Prod.fst

def values (m : LinkedMap K V) : List V := m.entries.map Prod.snd

def filterValues (m : LinkedMap K V) (p : V → Bool) : LinkedMap K V where
  entries := m.entries.filter fun e => p e.2
  nodup := m.nodup.sublist (List.filter_sublist.map _)

variable [DecidableEq K]

def get? (m : LinkedMap K V) (k : K) : Option V :=
  (m.entries.find? fun e => e.1 = k).map Prod.snd

def modify (m : LinkedMap K V) (k : K) (f : V → V) : LinkedMap K V where
  entries := m.entries.map fun e => if e.1 = k then (e.1, f e.2) else e
  nodup := by
    have hkeys : (m.entries.map fun e => if e.1 = k then (e.1, f e.2) else e).map Prod.fst =
        m.entries.map Prod.fst := by
      rw [List.map_map]
      refine List.map_congr_left fun e _ => ?_
      by_cases he : e.1 = k <;> simp [he]
    rw [hkeys]
    exact m.nodup

/-- The map without these keys. -/
def removeAll (m : LinkedMap K V) (ks : List K) : LinkedMap K V where
  entries := m.entries.filter fun e => e.1 ∉ ks
  nodup := m.nodup.sublist (List.filter_sublist.map _)

/-- A key that is there keeps its place, a new one comes last. -/
def put (m : LinkedMap K V) (k : K) (v : V) : LinkedMap K V :=
  if h : k ∈ m.keys then m.modify k fun _ => v
  else
    { entries := m.entries ++ [(k, v)]
      nodup := by
        rw [List.map_append, List.nodup_append]
        refine ⟨m.nodup, List.nodup_singleton _, fun a ha b hb heq => h ?_⟩
        have hbk : b = k := by simpa using hb
        rwa [← hbk, ← heq] }

omit [DecidableEq K] in
@[simp] theorem values_empty : (empty : LinkedMap K V).values = [] := rfl

@[simp] theorem get?_empty (k : K) : (empty : LinkedMap K V).get? k = none := rfl

theorem get?_eq_some_iff {m : LinkedMap K V} {k : K} {v : V} :
    m.get? k = some v ↔ (k, v) ∈ m.entries := by
  rw [get?, Option.map_eq_some_iff]
  constructor
  · rintro ⟨e, he, rfl⟩
    have hkey : e.1 = k := by simpa using List.find?_some he
    rw [← hkey]
    exact List.mem_of_find?_eq_some he
  · intro hmem
    obtain ⟨e, he⟩ : ∃ e, m.entries.find? (fun e => e.1 = k) = some e := by
      rw [← Option.isSome_iff_exists, List.find?_isSome]
      exact ⟨(k, v), hmem, by simp⟩
    have hkey : e.1 = (k, v).1 := by simpa using List.find?_some he
    have heq : e = (k, v) :=
      List.inj_on_of_nodup_map m.nodup (List.mem_of_find?_eq_some he) hmem hkey
    exact ⟨e, he, by rw [heq]⟩

theorem get?_eq_none_iff {m : LinkedMap K V} {k : K} : m.get? k = none ↔ k ∉ m.keys := by
  rw [get?, Option.map_eq_none_iff, List.find?_eq_none, keys, List.mem_map]
  simp only [decide_eq_true_eq, not_exists, not_and]

theorem mem_keys_iff {m : LinkedMap K V} {k : K} : k ∈ m.keys ↔ ∃ v, m.get? k = some v := by
  rw [← Option.ne_none_iff_exists', Ne, get?_eq_none_iff, not_not]

theorem mem_values_iff {m : LinkedMap K V} {v : V} : v ∈ m.values ↔ ∃ k, m.get? k = some v := by
  simp only [values, get?_eq_some_iff, List.mem_map]
  constructor
  · rintro ⟨e, he, rfl⟩
    exact ⟨e.1, he⟩
  · rintro ⟨k, hk⟩
    exact ⟨(k, v), hk, rfl⟩

omit [DecidableEq K] in
theorem keys_nodup (m : LinkedMap K V) : m.keys.Nodup := m.nodup

@[simp] theorem get?_modify (m : LinkedMap K V) (k j : K) (f : V → V) :
    (m.modify k f).get? j = if j = k then (m.get? j).map f else m.get? j := by
  simp only [get?, modify, List.find?_map, Option.map_map]
  have hfind : ((fun e : K × V => decide (e.1 = j)) ∘
      fun e => if e.1 = k then (e.1, f e.2) else e) = fun e => decide (e.1 = j) := by
    funext e
    by_cases he : e.1 = k <;> simp [he]
  rw [hfind]
  cases hj : m.entries.find? fun e => e.1 = j with
  | none => simp
  | some e =>
    have hkey : e.1 = j := by simpa using List.find?_some hj
    by_cases hjk : j = k <;> simp [hkey, hjk]

@[simp] theorem keys_modify (m : LinkedMap K V) (k : K) (f : V → V) :
    (m.modify k f).keys = m.keys := by
  rw [keys, keys, modify, List.map_map]
  refine List.map_congr_left fun e _ => ?_
  by_cases he : e.1 = k <;> simp [he]

@[simp] theorem get?_put (m : LinkedMap K V) (k j : K) (v : V) :
    (m.put k v).get? j = if j = k then some v else m.get? j := by
  by_cases hmem : k ∈ m.keys
  · rw [put, dif_pos hmem, get?_modify]
    by_cases hjk : j = k
    · obtain ⟨w, hw⟩ := mem_keys_iff.mp hmem
      simp [hjk, hw]
    · simp [hjk]
  · have hnone := get?_eq_none_iff.mpr hmem
    rw [put, dif_neg hmem]
    by_cases hjk : j = k
    · subst hjk
      rw [get?, Option.map_eq_none_iff] at hnone
      simp [get?, List.find?_append, hnone]
    · have hne : ¬ k = j := fun h => hjk h.symm
      simp [get?, List.find?_append, hjk, hne]

theorem get?_filterValues (m : LinkedMap K V) (p : V → Bool) (k : K) :
    (m.filterValues p).get? k = (m.get? k).filter p := by
  refine Option.ext fun v => ?_
  rw [get?_eq_some_iff, Option.filter_eq_some_iff, get?_eq_some_iff, filterValues,
    List.mem_filter]

omit [DecidableEq K] in
@[simp] theorem values_filterValues (m : LinkedMap K V) (p : V → Bool) :
    (m.filterValues p).values = m.values.filter p := by
  rw [values, values, filterValues, List.filter_map]
  rfl

/-- Entries may be left out by their keys as well as by their values. -/
theorem removeAll_keys_filterValues (m : LinkedMap K V) (p : V → Bool) :
    m.removeAll (m.filterValues p).keys = m.filterValues fun v => !p v := by
  have hkey : ∀ e ∈ m.entries, e.1 ∈ (m.filterValues p).keys ↔ p e.2 = true := by
    intro e he
    have hget : m.get? e.1 = some e.2 := get?_eq_some_iff.mpr he
    rw [mem_keys_iff, get?_filterValues, hget, Option.filter_some]
    by_cases hp : p e.2 <;> simp [hp]
  refine LinkedMap.ext (List.filter_congr fun e he => ?_)
  rw [Bool.eq_iff_iff, decide_eq_true_eq, hkey e he, Bool.not_eq_true, Bool.not_eq_true']

/-! ## Values that know their key -/

/-- Every value is kept under its own key. -/
def KeyedBy (m : LinkedMap K V) (key : V → K) : Prop := ∀ k v, m.get? k = some v → key v = k

variable {m : LinkedMap K V} {key : V → K} {k : K}

theorem KeyedBy.key_eq (h : m.KeyedBy key) {e : K × V} (he : e ∈ m.entries) : key e.2 = e.1 :=
  h e.1 e.2 (get?_eq_some_iff.mpr he)

theorem KeyedBy.map_values (h : m.KeyedBy key) : m.values.map key = m.keys := by
  rw [values, keys, List.map_map]
  exact List.map_congr_left fun e he => h.key_eq he

theorem KeyedBy.get?_eq (h : m.KeyedBy key) (k : K) :
    m.get? k = m.values.find? fun v => key v = k := by
  rw [get?, values, List.find?_map]
  congr 1
  have hkey : ∀ l : List (K × V), (∀ e ∈ l, key e.2 = e.1) →
      l.find? (fun e => e.1 = k) = l.find? ((fun v => decide (key v = k)) ∘ Prod.snd) := by
    intro l hl
    induction l with
    | nil => rfl
    | cons e l ih =>
      have he : key e.2 = e.1 := hl e (by simp)
      rw [List.find?_cons, List.find?_cons, Function.comp_apply, he,
        ih fun e he => hl e (List.mem_cons_of_mem _ he)]
  exact hkey m.entries fun e he => h.key_eq he

theorem KeyedBy.values_modify (h : m.KeyedBy key) (k : K) (f : V → V) :
    (m.modify k f).values = m.values.map fun v => if key v = k then f v else v := by
  rw [values, values, modify, List.map_map, List.map_map]
  refine List.map_congr_left fun e he => ?_
  by_cases hk : e.1 = k <;> simp [h.key_eq he, hk]

theorem KeyedBy.values_put (h : m.KeyedBy key) (k : K) (v : V) :
    (m.put k v).values = if m.values.any (key · = k) then
      m.values.map fun old => if key old = k then v else old else m.values ++ [v] := by
  have hany : m.values.any (key · = k) = true ↔ k ∈ m.keys := by
    rw [← h.map_values, List.any_eq_true, List.mem_map]
    simp only [decide_eq_true_eq]
  by_cases hk : k ∈ m.keys
  · rw [put, dif_pos hk, if_pos (hany.mpr hk), h.values_modify]
  · rw [put, dif_neg hk, if_neg (fun hin => hk (hany.mp hin)), values, List.map_append,
      List.map_singleton, values]

theorem KeyedBy.modify (h : m.KeyedBy key) {f : V → V} (hf : ∀ v, key (f v) = key v) :
    (m.modify k f).KeyedBy key := by
  intro j v hv
  rw [get?_modify] at hv
  split_ifs at hv with hj
  · obtain ⟨w, hw, rfl⟩ := Option.map_eq_some_iff.mp hv
    rw [hf, h j w hw]
  · exact h j v hv

theorem KeyedBy.put (h : m.KeyedBy key) {v : V} (hv : key v = k) : (m.put k v).KeyedBy key := by
  intro j w hw
  rw [get?_put] at hw
  split_ifs at hw with hj
  · rw [← Option.some.inj hw, hv, hj]
  · exact h j w hw

end LinkedMap

section Pairs

variable {K α β : Type*} [DecidableEq K] (f : α → Option β) {l : List (K × α)} {k : K}

theorem filterMap_key_of_not_mem (h : k ∉ l.map Prod.fst) :
    l.filterMap (fun p => if p.1 = k then f p.2 else none) = [] := by
  rw [List.filterMap_eq_nil_iff]
  intro p hp
  have hne : p.1 ≠ k := by
    rintro rfl
    exact h (List.mem_map_of_mem hp)
  exact if_neg hne

theorem filterMap_key_of_mem (hnodup : (l.map Prod.fst).Nodup) {a : α} (h : (k, a) ∈ l) :
    l.filterMap (fun p => if p.1 = k then f p.2 else none) = (f a).toList := by
  obtain ⟨before, behind, rfl⟩ := List.append_of_mem h
  rw [List.map_append, List.map_cons, List.nodup_middle, List.nodup_cons, List.mem_append,
    not_or] at hnodup
  obtain ⟨⟨hbefore, hbehind⟩, -⟩ := hnodup
  rw [List.filterMap_append, List.filterMap_cons, filterMap_key_of_not_mem f hbefore,
    filterMap_key_of_not_mem f hbehind, if_pos rfl]
  cases f a with
  | none => rfl
  | some b => rfl

end Pairs

end SnipeIt.Support
