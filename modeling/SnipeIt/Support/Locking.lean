import Mathlib.Data.List.Pairwise
import Mathlib.Logic.Function.Basic
import Mathlib.Logic.Relation
import SnipeIt.Support.Run

/-! # Threads that take locks in an order

A language of the lock operations of a program, threads that run it in any
interleaving, and a check of the code alone: every lock ranks above those that
are held when it is taken, and a condition wait gives up the only lock held.
Threads whose code passes the check never wait for one another in a circle.
-/

namespace SnipeIt.Support

/-- What code does with locks. A wait is on a condition variable and gives the lock up meanwhile. -/
inductive LockCode (ℓ : Type*) where
  | skip
  | lock (l : ℓ)
  | unlock (l : ℓ)
  | wait (l : ℓ)
  | seq (first second : LockCode ℓ)
  | choice (left right : LockCode ℓ)
  | loop (body : LockCode ℓ)

namespace LockCode

variable {ℓ : Type*}

/-- Code that may be left out. -/
def maybe (code : LockCode ℓ) : LockCode ℓ := .choice .skip code

def holding (l : ℓ) (body : LockCode ℓ) : LockCode ℓ := .seq (.lock l) (.seq body (.unlock l))

/-- The pieces of code one after the other. -/
def inTurn : List (LockCode ℓ) → LockCode ℓ
  | [] => .skip
  | code :: codes => .seq code (inTurn codes)

/-- One of the pieces of code, or none. -/
def oneOf : List (LockCode ℓ) → LockCode ℓ
  | [] => .skip
  | code :: codes => .choice code (oneOf codes)

variable [DecidableEq ℓ]

/-- The locks held after the code, the newest first, if it takes them in the order of `rank`. -/
def after (rank : ℓ → ℕ) : LockCode ℓ → List ℓ → Option (List ℓ)
  | .skip, held => some held
  | .lock l, held => if ∀ h ∈ held, rank h < rank l then some (l :: held) else none
  | .unlock l, held => if held.head? = some l then some held.tail else none
  | .wait l, held => if held = [l] then some held else none
  | .seq first second, held => (first.after rank held).bind (second.after rank)
  | .choice left right, held =>
    (left.after rank held).bind fun held' =>
      if right.after rank held = some held' then some held' else none
  | .loop body, held => if body.after rank held = some held then some held else none

/-- The same for code that is still to be run, the next piece first. -/
def afterAll (rank : ℓ → ℕ) : List (LockCode ℓ) → List ℓ → Option (List ℓ)
  | [], held => some held
  | code :: todo, held => (code.after rank held).bind (afterAll rank todo)

/-- Code that takes its locks in order and gives them all back. -/
def InOrder (rank : ℓ → ℕ) (code : LockCode ℓ) : Prop := code.after rank [] = some []

instance (rank : ℓ → ℕ) (code : LockCode ℓ) : Decidable (code.InOrder rank) :=
  inferInstanceAs (Decidable (_ = _))

end LockCode

/-- A thread with the code that it has still to run. One that is asleep takes the lock of its wait
again when it wakes up. -/
inductive LockThread (ℓ : Type*) where
  | running (todo : List (LockCode ℓ))
  | asleep (l : ℓ) (todo : List (LockCode ℓ))

/-- The rest of the thread's code takes its locks in order and gives back all that it holds. -/
def LockThread.Ends {ℓ : Type*} [DecidableEq ℓ] (rank : ℓ → ℕ) (held : List ℓ) :
    LockThread ℓ → Prop
  | .running todo => LockCode.afterAll rank todo held = some []
  | .asleep l todo => held = [] ∧ LockCode.afterAll rank todo [l] = some []

def LockThread.wanted {ℓ : Type*} : LockThread ℓ → Option ℓ
  | .running (.lock l :: _) => some l
  | _ => none

structure LockMachine (κ ℓ : Type*) where
  threads : κ → LockThread ℓ
  owner : ℓ → Option κ

namespace LockMachine

variable {κ ℓ : Type*}

def init (code : κ → LockCode ℓ) : LockMachine κ ℓ := ⟨fun t => .running [code t], fun _ => none⟩

/-- The thread's next piece of code takes the lock. -/
def Wants (m : LockMachine κ ℓ) (t : κ) (l : ℓ) : Prop := (m.threads t).wanted = some l

theorem wants_iff {m : LockMachine κ ℓ} {t : κ} {l : ℓ} :
    m.Wants t l ↔ ∃ todo, m.threads t = .running (.lock l :: todo) := by
  unfold Wants
  constructor
  · intro h
    cases hthread : m.threads t with
    | asleep => simp [hthread, LockThread.wanted] at h
    | running todo =>
      rcases todo with _ | ⟨code, todo⟩
      · simp [hthread, LockThread.wanted] at h
      · cases code <;> simp_all [LockThread.wanted]
  · rintro ⟨todo, hthread⟩
    rw [hthread, LockThread.wanted]

/-- A thread waits for the owner of the lock that it wants. -/
def WaitsFor (m : LockMachine κ ℓ) (t u : κ) : Prop := ∃ l, m.Wants t l ∧ m.owner l = some u

/-- The owner of one lock waits for the other. -/
def LockWaitsFor (m : LockMachine κ ℓ) (l l' : ℓ) : Prop :=
  ∃ t, m.owner l = some t ∧ m.Wants t l' ∧ m.owner l' ≠ none

/-! ## What the order is good for -/

variable [DecidableEq ℓ]

/-- The locks that a thread holds, which the rest of its code takes further in order. -/
structure Holds (rank : ℓ → ℕ) (m : LockMachine κ ℓ) (t : κ) (held : List ℓ) : Prop where
  owns : ∀ l, m.owner l = some t ↔ l ∈ held
  sorted : held.Pairwise fun a b => rank b < rank a
  ends : (m.threads t).Ends rank held

def Disciplined (rank : ℓ → ℕ) (m : LockMachine κ ℓ) : Prop := ∀ t, ∃ held, Holds rank m t held

variable {rank : ℓ → ℕ} {m m' : LockMachine κ ℓ} {t u : κ} {l l' : ℓ} {held : List ℓ}

/-- The lock that a thread wants ranks above all that it holds. -/
theorem Disciplined.rank_lt (hm : Disciplined rank m) (hwants : m.Wants t l)
    (howner : m.owner l' = some t) : rank l' < rank l := by
  obtain ⟨held, hheld⟩ := hm t
  obtain ⟨todo, hthread⟩ := wants_iff.mp hwants
  have hends := hheld.ends
  rw [hthread] at hends
  obtain ⟨held', hcode, -⟩ := Option.bind_eq_some_iff.mp hends
  simp only [LockCode.after] at hcode
  split_ifs at hcode with hrank
  exact hrank l' ((hheld.owns l').mp howner)

theorem Disciplined.asleep_owns_nothing (hm : Disciplined rank m) {todo : List (LockCode ℓ)}
    (hthread : m.threads t = .asleep l todo) (l' : ℓ) : m.owner l' ≠ some t := by
  obtain ⟨held, hheld⟩ := hm t
  have hends := hheld.ends
  rw [hthread] at hends
  rw [Ne, hheld.owns, hends.1]
  exact List.not_mem_nil

/-- Along a chain of waiting threads the wanted locks rise. -/
theorem Disciplined.rank_lt_of_chain (hm : Disciplined rank m)
    (h : Relation.TransGen m.WaitsFor t u) :
    ∃ l, m.Wants t l ∧ ∀ l', m.Wants u l' → rank l < rank l' := by
  induction h with
  | single hfor =>
    obtain ⟨l, hwants, howner⟩ := hfor
    exact ⟨l, hwants, fun l' hwants' => hm.rank_lt hwants' howner⟩
  | tail _ hfor ih =>
    obtain ⟨l, hwants, hrise⟩ := ih
    obtain ⟨l₁, hwants₁, howner⟩ := hfor
    exact ⟨l, hwants, fun l' hwants' => Nat.lt_trans (hrise l₁ hwants₁) (hm.rank_lt hwants' howner)⟩

theorem Disciplined.waitsFor_acyclic (hm : Disciplined rank m) (t : κ) :
    ¬ Relation.TransGen m.WaitsFor t t := by
  intro h
  obtain ⟨l, hwants, hrise⟩ := hm.rank_lt_of_chain h
  exact Nat.lt_irrefl _ (hrise l hwants)

theorem Disciplined.lockWaitsFor_acyclic (hm : Disciplined rank m) (l : ℓ) :
    ¬ Relation.TransGen m.LockWaitsFor l l := by
  intro h
  have hrise : ∀ {l'}, Relation.TransGen m.LockWaitsFor l l' → rank l < rank l' := by
    intro l' h
    induction h with
    | single hfor =>
      obtain ⟨t, howner, hwants, -⟩ := hfor
      exact hm.rank_lt hwants howner
    | tail _ hfor ih =>
      obtain ⟨t, howner, hwants, -⟩ := hfor
      exact Nat.lt_trans ih (hm.rank_lt hwants howner)
  exact Nat.lt_irrefl _ (hrise h)

/-! ## Running -/

variable [DecidableEq κ]

def setThread (m : LockMachine κ ℓ) (t : κ) (thread : LockThread ℓ) : LockMachine κ ℓ :=
  { m with threads := Function.update m.threads t thread }

def setOwner (m : LockMachine κ ℓ) (l : ℓ) (owner : Option κ) : LockMachine κ ℓ :=
  { m with owner := Function.update m.owner l owner }

/-- Thread `t` runs the next piece of its code; `left` is the branch that it takes, or that it runs
a loop once more. A sleeping thread wakes up, with a signal or without. -/
def run (m : LockMachine κ ℓ) (t : κ) (left : Bool) :
    LockThread ℓ → Option (LockMachine κ ℓ)
  | .asleep l todo => some (m.setThread t (.running (.lock l :: todo)))
  | .running [] => none
  | .running (.skip :: todo) => some (m.setThread t (.running todo))
  | .running (.lock l :: todo) =>
    if m.owner l = none then some ((m.setOwner l (some t)).setThread t (.running todo)) else none
  | .running (.unlock l :: todo) => some ((m.setOwner l none).setThread t (.running todo))
  | .running (.wait l :: todo) => some ((m.setOwner l none).setThread t (.asleep l todo))
  | .running (.seq first second :: todo) =>
    some (m.setThread t (.running (first :: second :: todo)))
  | .running (.choice one other :: todo) =>
    some (m.setThread t (.running ((if left then one else other) :: todo)))
  | .running (.loop body :: todo) =>
    some (m.setThread t (.running (if left then body :: .loop body :: todo else todo)))

def apply (m : LockMachine κ ℓ) (a : κ × Bool) : Option (LockMachine κ ℓ) :=
  m.run a.1 a.2 (m.threads a.1)

def Step (m : LockMachine κ ℓ) (a : κ × Bool) (m' : LockMachine κ ℓ) : Prop :=
  m.apply a = some m'

/-- A thread has a step. -/
def CanGo (m : LockMachine κ ℓ) (t : κ) : Prop := ∃ left m', Step m (t, left) m'

omit [DecidableEq κ] in
theorem Disciplined.init {code : κ → LockCode ℓ}
    (h : ∀ t, (code t).InOrder rank) : Disciplined rank (init code) := by
  intro t
  refine ⟨[], by simp [LockMachine.init], List.Pairwise.nil, ?_⟩
  have hcode : (code t).after rank [] = some [] := h t
  simp [LockMachine.init, LockThread.Ends, LockCode.afterAll, hcode]

omit [DecidableEq κ] in
/-- What the other threads do with other locks does not matter to a thread. -/
theorem Holds.of_same (h : Holds rank m u held) (hthread : m'.threads u = m.threads u)
    (howner : ∀ l, m'.owner l = some u ↔ m.owner l = some u) : Holds rank m' u held where
  owns := fun l => (howner l).trans (h.owns l)
  sorted := h.sorted
  ends := hthread ▸ h.ends

theorem Holds.setThread (h : Holds rank m t held) {thread : LockThread ℓ}
    (hends : thread.Ends rank held) : Holds rank (m.setThread t thread) t held where
  owns := h.owns
  sorted := h.sorted
  ends := by simpa [LockMachine.setThread] using hends

theorem Holds.take (h : Holds rank m t held) (hfree : m.owner l = none)
    (hrank : ∀ l' ∈ held, rank l' < rank l) {thread : LockThread ℓ}
    (hends : thread.Ends rank (l :: held)) :
    Holds rank ((m.setOwner l (some t)).setThread t thread) t (l :: held) where
  owns := fun l' => by
    by_cases hl : l' = l
    · subst hl
      simp [LockMachine.setThread, setOwner]
    · simpa [LockMachine.setThread, setOwner, hl] using h.owns l'
  sorted := List.pairwise_cons.mpr ⟨hrank, h.sorted⟩
  ends := by simpa [LockMachine.setThread] using hends

theorem Holds.release (h : Holds rank m t (l :: held)) {thread : LockThread ℓ}
    (hends : thread.Ends rank held) :
    Holds rank ((m.setOwner l none).setThread t thread) t held where
  owns := fun l' => by
    by_cases hl : l' = l
    · subst hl
      have hnot : l' ∉ held := fun hmem =>
        absurd ((List.pairwise_cons.mp h.sorted).1 l' hmem) (Nat.lt_irrefl _)
      simp [LockMachine.setThread, setOwner, hnot]
    · simpa [LockMachine.setThread, setOwner, hl] using h.owns l'
  sorted := (List.pairwise_cons.mp h.sorted).2
  ends := by simpa [LockMachine.setThread] using hends

/-- A step of a thread keeps the order for that thread. -/
theorem Holds.run {left : Bool} {thread : LockThread ℓ} (h : Holds rank m t held)
    (hends : thread.Ends rank held) (hstep : m.run t left thread = some m') :
    ∃ held', Holds rank m' t held' := by
  rcases thread with todo | ⟨l, todo⟩
  · rcases todo with _ | ⟨code, todo⟩
    · cases hstep
    · obtain ⟨held', hcode, htodo⟩ := Option.bind_eq_some_iff.mp hends
      cases code with
      | skip =>
        cases hstep
        cases hcode
        exact ⟨held, h.setThread htodo⟩
      | lock l =>
        simp only [LockMachine.run] at hstep
        split_ifs at hstep with hfree
        cases hstep
        simp only [LockCode.after] at hcode
        split_ifs at hcode with hrank
        cases hcode
        exact ⟨l :: held, h.take hfree hrank htodo⟩
      | unlock l =>
        cases hstep
        simp only [LockCode.after] at hcode
        split_ifs at hcode with hhead
        cases hcode
        obtain ⟨rest, rfl⟩ := List.head?_eq_some_iff.mp hhead
        exact ⟨rest, h.release htodo⟩
      | wait l =>
        cases hstep
        simp only [LockCode.after] at hcode
        split_ifs at hcode with hheld
        subst hheld
        cases hcode
        exact ⟨[], h.release ⟨rfl, htodo⟩⟩
      | seq first second =>
        cases hstep
        obtain ⟨between, hfirst, hsecond⟩ := Option.bind_eq_some_iff.mp hcode
        refine ⟨held, h.setThread ?_⟩
        simp [LockThread.Ends, LockCode.afterAll, hfirst, hsecond, htodo]
      | choice one other =>
        cases hstep
        obtain ⟨held'', hone, hother⟩ := Option.bind_eq_some_iff.mp hcode
        split_ifs at hother with hsame
        cases hother
        refine ⟨held, h.setThread ?_⟩
        cases left with
        | true => simp [LockThread.Ends, LockCode.afterAll, hone, htodo]
        | false => simp [LockThread.Ends, LockCode.afterAll, hsame, htodo]
      | loop body =>
        cases hstep
        have hloop := hcode
        simp only [LockCode.after] at hcode
        split_ifs at hcode with hbody
        cases hcode
        refine ⟨held, h.setThread ?_⟩
        cases left with
        | true => simp [LockThread.Ends, LockCode.afterAll, hbody, hloop, htodo]
        | false => exact htodo
  · cases hstep
    obtain ⟨rfl, htodo⟩ := hends
    refine ⟨[], h.setThread ?_⟩
    simp [LockThread.Ends, LockCode.afterAll, LockCode.after, htodo]

omit [DecidableEq κ] in
/-- A lock that is free or held by `t`, before and after, is no lock of another thread. -/
theorem setOwner_others {l : ℓ} {owner : Option κ} (hu : u ≠ t)
    (hbefore : ∀ v ∈ m.owner l, v = t) (hafter : ∀ v ∈ owner, v = t) (l' : ℓ) :
    (m.setOwner l owner).owner l' = some u ↔ m.owner l' = some u := by
  by_cases hl : l' = l
  · subst hl
    have hnew : owner ≠ some u := fun h => hu (hafter u h)
    have hold : m.owner l' ≠ some u := fun h => hu (hbefore u h)
    simp [setOwner, hnew, hold]
  · simp [setOwner, hl]

/-- A step of a thread changes the locks of no other. -/
theorem run_others {left : Bool} {thread : LockThread ℓ} (h : Holds rank m t held)
    (hends : thread.Ends rank held) (hstep : m.run t left thread = some m') (hu : u ≠ t) :
    m'.threads u = m.threads u ∧ ∀ l, m'.owner l = some u ↔ m.owner l = some u := by
  rcases thread with todo | ⟨l, todo⟩
  · rcases todo with _ | ⟨code, todo⟩
    · cases hstep
    · obtain ⟨held', hcode, -⟩ := Option.bind_eq_some_iff.mp hends
      cases code with
      | skip | seq | choice | loop =>
        cases hstep
        simp [LockMachine.setThread, hu]
      | lock l =>
        simp only [LockMachine.run] at hstep
        split_ifs at hstep with hfree
        cases hstep
        refine ⟨by simp [LockMachine.setThread, setOwner, hu], setOwner_others hu ?_ ?_⟩
        · simp [hfree]
        · simp
      | unlock l =>
        cases hstep
        simp only [LockCode.after] at hcode
        split_ifs at hcode with hhead
        have howner : m.owner l = some t := (h.owns l).mpr (List.mem_of_head? hhead)
        refine ⟨by simp [LockMachine.setThread, setOwner, hu], setOwner_others hu ?_ ?_⟩
        · simp [howner]
        · simp
      | wait l =>
        cases hstep
        simp only [LockCode.after] at hcode
        split_ifs at hcode with hheld
        have howner : m.owner l = some t := (h.owns l).mpr (by simp [hheld])
        refine ⟨by simp [LockMachine.setThread, setOwner, hu], setOwner_others hu ?_ ?_⟩
        · simp [howner]
        · simp
  · cases hstep
    simp [LockMachine.setThread, hu]

theorem Disciplined.step {a : κ × Bool} (hm : Disciplined rank m) (h : Step m a m') :
    Disciplined rank m' := by
  intro u
  obtain ⟨held, hheld⟩ := hm a.1
  by_cases hu : u = a.1
  · subst hu
    exact hheld.run hheld.ends h
  · obtain ⟨hthread, howner⟩ := run_others hheld hheld.ends h hu
    obtain ⟨heldu, hheldu⟩ := hm u
    exact ⟨heldu, hheldu.of_same hthread howner⟩

theorem run_disciplined {code : κ → LockCode ℓ} {acts : List (κ × Bool)}
    (hcode : ∀ t, (code t).InOrder rank) (h : Run Step (LockMachine.init code) acts m) :
    Disciplined rank m :=
  h.invariant (Disciplined.init hcode) fun _ _ _ hs hst => hs.step hst

/-- A thread that owns a lock has a step, or waits for the owner of another. -/
theorem Disciplined.owner_goes_or_waits (hm : Disciplined rank m) (howner : m.owner l = some t) :
    m.CanGo t ∨ ∃ l' u, m.Wants t l' ∧ m.owner l' = some u := by
  obtain ⟨held, hheld⟩ := hm t
  have hmem : l ∈ held := (hheld.owns l).mp howner
  have hends := hheld.ends
  cases hthread : m.threads t with
  | asleep l' todo => exact absurd howner (hm.asleep_owns_nothing hthread l)
  | running todo =>
    rw [hthread] at hends
    rcases todo with _ | ⟨code, todo⟩
    · cases hends
      cases hmem
    · cases code with
      | lock l' =>
        cases howner' : m.owner l' with
        | none => exact .inl ⟨true, _, by
          rw [Step, apply, hthread]
          exact if_pos howner'⟩
        | some u => exact .inr ⟨l', u, wants_iff.mpr ⟨todo, hthread⟩, howner'⟩
      | skip | unlock | wait | seq | choice | loop =>
        exact .inl ⟨true, _, by rw [Step, apply, hthread, LockMachine.run]⟩

/-- Whoever waits for a lock, somebody who holds one can go on, at the end of the chain of those
who wait for one another. -/
theorem Disciplined.chain_ends {n : ℕ} (hm : Disciplined rank m) (hbound : ∀ l, rank l < n)
    (hwaits : m.WaitsFor t u) :
    ∃ v, Relation.TransGen m.WaitsFor t v ∧ (∃ l, m.owner l = some v) ∧ m.CanGo v := by
  obtain ⟨l, hwants, howner⟩ := hwaits
  generalize hk : n - rank l = k
  induction k using Nat.strongRecOn generalizing t u l with
  | ind k ih =>
    have hfor : m.WaitsFor t u := ⟨l, hwants, howner⟩
    rcases hm.owner_goes_or_waits howner with hgo | ⟨l', v, hwants', howner'⟩
    · exact ⟨u, .single hfor, ⟨l, howner⟩, hgo⟩
    · have hrise : rank l < rank l' := hm.rank_lt hwants' howner
      have hlt := hbound l'
      obtain ⟨w, hchain, hend⟩ := ih (n - rank l') (by omega) l' hwants' howner' rfl
      exact ⟨w, hchain.head hfor, hend⟩

end LockMachine

end SnipeIt.Support
