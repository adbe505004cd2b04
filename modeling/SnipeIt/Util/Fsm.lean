import Mathlib.Data.List.Basic
import SnipeIt.Status
import SnipeIt.Support.Run

/-! # The state machine (`fsm.c`)

A state handler may start transitions, which call handlers again before they
return. What a handler does is a tree: it goes on with whatever a transition has
left behind. The depth of the calls is not bounded, so a call runs on fuel and
has an outcome only if it terminates.
-/

namespace SnipeIt.Util
open Support

def fsmEventInit : ℕ := 0

def fsmEventEntry : ℕ := 1

def fsmEventExit : ℕ := 2

/-- What a handler does: it returns, or it calls `util_fsm_transition`, where the next state is
`none` for `NULL`, and goes on. The handlers share data of type `δ`. -/
inductive Handling (S δ : Type*) where
  | done (data : δ)
  | transition (next : Option S) (data : δ) (resume : Status → δ → Handling S δ)

/-- The state handlers, which look at the type of the event and the data. -/
abbrev Handlers (S δ : Type*) := S → ℕ → δ → Handling S δ

/-- A call of a state handler. The machine makes the first three itself, to begin with and for a
transition; the last one hands on an event. -/
inductive StateCall (S : Type*) where
  | init (state : S)
  | exit (state : S)
  | entry (state : S)
  | event (state : S) (type : ℕ)
  deriving DecidableEq

/-- The machine, with the calls of its handlers and the targets of the transitions begun. -/
structure Fsm (S δ : Type*) where
  currentState : S
  data : δ
  trace : List (StateCall S)
  begun : List S

namespace Fsm

variable {S δ : Type*}

def transition (handlers : Handlers S δ) (call : Handling S δ → Fsm S δ → Option (Fsm S δ))
    (next : Option S) (f : Fsm S δ) : Option (Status × Fsm S δ) :=
  match next with
  | none => some (.nullParam, f)
  | some next => do
    let exited ← call (handlers f.currentState fsmEventExit f.data)
      { f with trace := f.trace ++ [.exit f.currentState], begun := f.begun ++ [next] }
    let entered ← call (handlers next fsmEventEntry exited.data)
      { exited with currentState := next, trace := exited.trace ++ [.entry next] }
    return (.successful, entered)

def run (handlers : Handlers S δ) : ℕ → Handling S δ → Fsm S δ → Option (Fsm S δ)
  | 0, _, _ => none
  | _ + 1, .done data, f => some { f with data }
  | fuel + 1, .transition next data resume, f => do
    let (status, g) ← transition handlers (run handlers fuel) next { f with data }
    run handlers fuel (resume status g.data) g

def init (handlers : Handlers S δ) (fuel : ℕ) (initState : S) (data : δ) : Option (Fsm S δ) :=
  run handlers fuel (handlers initState fsmEventInit data) ⟨initState, data, [.init initState], []⟩

def sendEvent (handlers : Handlers S δ) (fuel : ℕ) (type : ℕ) (f : Fsm S δ) : Option (Fsm S δ) :=
  run handlers fuel (handlers f.currentState type f.data)
    { f with trace := f.trace ++ [.event f.currentState type] }

/-- A call of `util_fsm_send_event` that returns. Others may have written the data before it. -/
def Step (handlers : Handlers S δ) (f : Fsm S δ) (sent : ℕ × δ) (g : Fsm S δ) : Prop :=
  ∃ fuel, { f with data := sent.2 }.sendEvent handlers fuel sent.1 = some g

/-- No handler starts a transition when its state is left. -/
def QuietExit (handlers : Handlers S δ) : Prop :=
  ∀ state data, ∃ data', handlers state fsmEventExit data = .done data'

end Fsm

namespace StateCall

variable {S : Type*}

/-- A call that the machine makes for itself, rather than to hand on an event. -/
def isLifecycle : StateCall S → Bool
  | .event _ _ => false
  | _ => true

def entered? : StateCall S → Option S
  | .init state | .entry state => some state
  | _ => none

def current (calls : List (StateCall S)) : Option S :=
  (calls.filterMap entered?).getLast?

def visits : S → List S → List (StateCall S)
  | _, [] => []
  | state, next :: path => .exit state :: .entry next :: visits next path

theorem visits_append (state : S) (path path' : List S) :
    visits state (path ++ path') = visits state path ++ visits (path.getLastD state) path' := by
  induction path generalizing state with
  | nil => rfl
  | cons next path ih =>
    rw [List.cons_append, visits, visits, ih, List.getLastD_cons, List.cons_append,
      List.cons_append]

theorem current_visits (calls : List (StateCall S)) (state : S) (path : List S)
    (h : current calls = some state) :
    current (calls ++ visits state path) = some (path.getLastD state) := by
  induction path generalizing calls state with
  | nil => simpa [visits] using h
  | cons next path ih =>
    have hnext : current (calls ++ [.exit state, .entry next]) = some next := by
      simp [current, List.filterMap_cons, entered?]
    rw [List.getLastD_cons, ← ih _ next hnext, visits, List.append_assoc]
    rfl

theorem current_path (state : S) (path : List S) :
    current (.init state :: visits state path) = some (path.getLastD state) :=
  current_visits [.init state] state path rfl

end StateCall

namespace Fsm

variable {S δ : Type*} {handlers : Handlers S δ}

def lifecycle (f : Fsm S δ) : List (StateCall S) := f.trace.filter StateCall.isLifecycle

/-- From `f` to `g` the machine has gone along the path. -/
structure Went (f g : Fsm S δ) (path : List S) : Prop where
  begun : g.begun = f.begun ++ path
  current : g.currentState = path.getLastD f.currentState
  lifecycle : g.lifecycle = f.lifecycle ++ StateCall.visits f.currentState path

namespace Went

theorem refl (f : Fsm S δ) : Went f f [] where
  begun := by simp
  current := rfl
  lifecycle := by simp [StateCall.visits]

theorem trans {f g h : Fsm S δ} {path path' : List S} (hfg : Went f g path)
    (hgh : Went g h path') : Went f h (path ++ path') where
  begun := by rw [hgh.begun, hfg.begun, List.append_assoc]
  current := by
    rw [hgh.current, hfg.current]
    cases path' <;> simp [List.getLastD_eq_getLast?]
  lifecycle := by
    rw [hgh.lifecycle, hfg.lifecycle, hfg.current, StateCall.visits_append, List.append_assoc]

theorem of_data {f g : Fsm S δ} {data : δ} {path : List S} (h : Went { f with data } g path) :
    Went f g path where
  begun := h.begun
  current := h.current
  lifecycle := h.lifecycle

end Went

theorem run_done {fuel : ℕ} {data : δ} {f g : Fsm S δ}
    (h : run handlers fuel (.done data) f = some g) : g = { f with data } := by
  cases fuel with
  | zero => cases h
  | succ => exact (Option.some.inj h).symm

/-- More fuel changes nothing for a handler that returns. -/
theorem run_mono {fuel fuel' : ℕ} {h : Handling S δ} {f g : Fsm S δ} (hle : fuel ≤ fuel')
    (hrun : run handlers fuel h f = some g) : run handlers fuel' h f = some g := by
  induction fuel generalizing fuel' h f g with
  | zero => cases hrun
  | succ fuel ih =>
    obtain ⟨fuel', rfl⟩ := Nat.exists_eq_succ_of_ne_zero (Nat.ne_zero_of_lt hle)
    have hle : fuel ≤ fuel' := Nat.succ_le_succ_iff.mp hle
    cases h with
    | done data => exact hrun
    | transition next data resume =>
      obtain ⟨⟨status, m⟩, hnext, hresume⟩ := Option.bind_eq_some_iff.mp hrun
      apply Option.bind_eq_some_iff.mpr
      use (status, m)
      refine ⟨?_, ih hle hresume⟩
      cases next with
      | none => exact hnext
      | some next =>
        obtain ⟨exited, hexit, hnext⟩ := Option.bind_eq_some_iff.mp hnext
        obtain ⟨entered, hentry, hnext⟩ := Option.bind_eq_some_iff.mp hnext
        rw [transition, ih hle hexit, Option.bind_eq_bind, Option.bind_some, ih hle hentry]
        exact hnext

theorem run_unique {fuel fuel' : ℕ} {h : Handling S δ} {f g g' : Fsm S δ}
    (hrun : run handlers fuel h f = some g) (hrun' : run handlers fuel' h f = some g') :
    g = g' := by
  rcases Nat.le_total fuel fuel' with hle | hle
  · exact Option.some.inj ((run_mono hle hrun).symm.trans hrun')
  · exact Option.some.inj (hrun.symm.trans (run_mono hle hrun'))

/-- A transition with which a handler ends: the `EXIT` of its state returns, and then the `ENTRY` of
the next one. -/
theorem run_goTo {fuel : ℕ} {next : S} {d d' : δ} {f g : Fsm S δ}
    (hexit : handlers f.currentState fsmEventExit d = .done d')
    (hentry : run handlers (fuel + 1) (handlers next fsmEventEntry d')
      ⟨next, d', f.trace ++ [.exit f.currentState] ++ [.entry next], f.begun ++ [next]⟩ = some g) :
    run handlers (fuel + 2) (.transition (some next) d fun _ d => .done d) f = some g := by
  simp only [run, transition, hexit, Option.bind_eq_bind, Option.bind_some, hentry]
  rfl

/-- A transition leaves the state that is current, enters the next one, and has gone wherever the
handler of its `ENTRY` has led from there. -/
theorem transition_went {call : Handling S δ → Fsm S δ → Option (Fsm S δ)} {next : Option S}
    {f g : Fsm S δ} {status : Status} (hquiet : QuietExit handlers)
    (hdone : ∀ data f g, call (.done data) f = some g → g = { f with data })
    (hcall : ∀ h f g, call h f = some g → ∃ path, Went f g path)
    (h : transition handlers call next f = some (status, g)) : ∃ path, Went f g path := by
  cases next with
  | none =>
    cases h
    exact ⟨[], .refl f⟩
  | some next =>
    obtain ⟨exited, hexit, h⟩ := Option.bind_eq_some_iff.mp h
    obtain ⟨entered, hentry, h⟩ := Option.bind_eq_some_iff.mp h
    cases h
    obtain ⟨data, hdata⟩ := hquiet f.currentState f.data
    rw [hdata] at hexit
    have hleft := hdone _ _ _ hexit
    subst hleft
    obtain ⟨path, hpath⟩ := hcall _ _ _ hentry
    refine ⟨next :: path, ⟨?_, ?_, ?_⟩⟩
    · rw [hpath.begun, List.append_assoc, List.singleton_append]
    · rw [hpath.current, List.getLastD_cons]
    · rw [hpath.lifecycle, lifecycle, List.filter_append, List.filter_append, List.append_assoc,
        List.append_assoc]
      rfl

/-- A handler that returns has gone along a path, however its transitions are nested. -/
theorem run_went (hquiet : QuietExit handlers) {fuel : ℕ} {h : Handling S δ} {f g : Fsm S δ}
    (hrun : run handlers fuel h f = some g) : ∃ path, Went f g path := by
  induction fuel generalizing h f g with
  | zero => cases hrun
  | succ fuel ih =>
    cases h with
    | done data =>
      cases hrun
      exact ⟨[], (Went.refl { f with data }).of_data⟩
    | transition next data resume =>
      obtain ⟨⟨status, m⟩, hnext, hresume⟩ := Option.bind_eq_some_iff.mp hrun
      obtain ⟨path, hpath⟩ := transition_went hquiet (fun _ _ _ => run_done)
        (fun _ _ _ => ih) hnext
      obtain ⟨path', hpath'⟩ := ih hresume
      exact ⟨path ++ path', hpath.of_data.trans hpath'⟩

/-- To hand on an event adds a call to the trace that is not the machine's own. -/
theorem sendEvent_went (hquiet : QuietExit handlers) {fuel type : ℕ} {f g : Fsm S δ}
    (h : f.sendEvent handlers fuel type = some g) : ∃ path, Went f g path := by
  obtain ⟨path, hpath⟩ := run_went hquiet h
  have hevent : ({ f with trace := f.trace ++ [.event f.currentState type] } : Fsm S δ).lifecycle =
      f.lifecycle := by
    simp [lifecycle, StateCall.isLifecycle]
  exact ⟨path, ⟨hpath.begun, hpath.current, hevent ▸ hpath.lifecycle⟩⟩

/-- The machine before the `INIT` of its first state is handled. -/
def created (initState : S) (data : δ) : Fsm S δ := ⟨initState, data, [.init initState], []⟩

theorem session_went (hquiet : QuietExit handlers) {fuel : ℕ} {initState : S} {data : δ}
    {sent : List (ℕ × δ)} {f g : Fsm S δ} (hinit : init handlers fuel initState data = some f)
    (hrun : Run (Step handlers) f sent g) : ∃ path, Went (created initState data) g path := by
  refine hrun.invariant (P := fun g => ∃ path, Went (created initState data) g path)
    (run_went hquiet hinit) ?_
  rintro f ⟨type, data'⟩ g ⟨path, hpath⟩ ⟨fuel, hstep⟩
  obtain ⟨path', hpath'⟩ := sendEvent_went hquiet hstep
  exact ⟨path ++ path', hpath.trans hpath'.of_data⟩

end Fsm

namespace StateCall

variable {S : Type*}

theorem entry_of_visits {state next : S} {path : List S} {before after : List (StateCall S)}
    (h : visits state path = before ++ .entry next :: after) :
    ∃ front, before = visits state front ++ [.exit (front.getLastD state)] := by
  induction path generalizing state before with
  | nil => simp [visits] at h
  | cons first path ih =>
    match before with
    | [] => simp [visits] at h
    | [call] =>
      obtain ⟨hcall, -⟩ := List.cons.inj h
      exact ⟨[], by rw [← hcall]; rfl⟩
    | call :: call' :: before =>
      obtain ⟨hcall, h⟩ := List.cons.inj h
      obtain ⟨hcall', h⟩ := List.cons.inj h
      obtain ⟨front, hfront⟩ := ih h
      refine ⟨first :: front, ?_⟩
      rw [hfront, ← hcall, ← hcall', visits, List.getLastD_cons]
      rfl

theorem concat_visits (state : S) (path : List S) :
    ∃ calls last, .init state :: visits state path = calls ++ [last] ∧ last.entered? ≠ none := by
  rcases List.eq_nil_or_concat' path with rfl | ⟨front, next, rfl⟩
  · exact ⟨[], .init state, rfl, Option.some_ne_none state⟩
  · refine ⟨.init state :: visits state front ++ [.exit (front.getLastD state)], .entry next, ?_,
      Option.some_ne_none next⟩
    rw [visits_append, List.append_assoc]
    rfl

/-- What a machine does to its states, as the calls that it makes for itself. -/
structure Disciplined (calls : List (StateCall S)) : Prop where
  /-- An `ENTRY` directly follows the `EXIT` of the state that was current. -/
  entry : ∀ before next after, calls = before ++ .entry next :: after →
    ∃ earlier left, before = earlier ++ [.exit left] ∧ current earlier = some left
  /-- Between two calls that enter a state, the first of the two is left, once. -/
  exit : ∀ before enter state mid next after,
    calls = before ++ enter :: (mid ++ .entry next :: after) → enter.entered? = some state →
      (∀ call ∈ mid, call.entered? = none) → mid = [.exit state]

theorem current_of_quiet {before mid : List (StateCall S)} {enter : StateCall S} {state : S}
    (henter : enter.entered? = some state) (hmid : ∀ call ∈ mid, call.entered? = none) :
    current (before ++ enter :: mid) = some state := by
  have hnone : mid.filterMap entered? = [] := List.filterMap_eq_nil_iff.mpr hmid
  rw [current, List.filterMap_append, List.filterMap_cons_some henter, hnone]
  simp

/-- What precedes the `ENTRY` of a state, from the start. -/
theorem before_entry {state next : S} {path : List S} {before after : List (StateCall S)}
    (h : .init state :: visits state path = before ++ .entry next :: after) :
    ∃ front, before = (.init state :: visits state front) ++ [.exit (front.getLastD state)] := by
  match before with
  | [] => cases h
  | first :: before =>
    obtain ⟨hfirst, h⟩ := List.cons.inj h
    obtain ⟨front, rfl⟩ := entry_of_visits h
    exact ⟨front, by rw [← hfirst, List.cons_append]⟩

theorem disciplined_visits (state : S) (path : List S) :
    Disciplined (.init state :: visits state path) where
  entry before next after h := by
    obtain ⟨front, rfl⟩ := before_entry h
    exact ⟨_, _, rfl, current_path state front⟩
  exit before enter left mid next after h henter hmid := by
    rw [← List.cons_append, ← List.append_assoc] at h
    obtain ⟨front, hfront⟩ := before_entry h
    -- the last of these calls is the `EXIT`, and what is before it ends with `enter`
    rcases List.eq_nil_or_concat' mid with rfl | ⟨rest, last, rfl⟩
    · have hlast := (List.append_inj' hfront rfl).2
      rw [List.cons.inj hlast |>.1] at henter
      cases henter
    · rw [← List.cons_append, ← List.append_assoc] at hfront
      obtain ⟨hbefore, hlast⟩ := List.append_inj' hfront rfl
      have hrest : ∀ call ∈ rest, call.entered? = none := fun call hcall =>
        hmid call (List.mem_append_left _ hcall)
      have hleft : left = front.getLastD state := by
        have hcurrent : current (before ++ enter :: rest) = some left :=
          current_of_quiet henter hrest
        rw [hbefore, current_path] at hcurrent
        exact (Option.some.inj hcurrent).symm
      rw [hlast, hleft]
      rcases List.eq_nil_or_concat' rest with rfl | ⟨rest, call, rfl⟩
      · rfl
      · obtain ⟨calls, call', hcalls, hcall'⟩ := concat_visits state front
        rw [← List.cons_append, ← List.append_assoc, hcalls] at hbefore
        have hcall := List.cons.inj (List.append_inj' hbefore rfl).2 |>.1
        exact absurd (hrest call (by simp)) (hcall ▸ hcall')

end StateCall

namespace Fsm

variable {S δ : Type*} {handlers : Handlers S δ}

/-- The discipline of the transitions: whatever the handlers do, in a session every `ENTRY`
directly follows the `EXIT` of the state that was current, a state is left once before the next
one is entered, and each call returns in the target of the transition that was begun last. -/
theorem fsm_transition_discipline (hquiet : QuietExit handlers) {fuel : ℕ} {initState : S}
    {data : δ} {sent : List (ℕ × δ)} {f g : Fsm S δ}
    (hinit : init handlers fuel initState data = some f) (hrun : Run (Step handlers) f sent g) :
    StateCall.Disciplined g.lifecycle ∧ StateCall.current g.lifecycle = some g.currentState ∧
      g.currentState = g.begun.getLastD initState := by
  obtain ⟨path, hpath⟩ := session_went hquiet hinit hrun
  have hbegun : g.begun = path := hpath.begun
  have hlifecycle : g.lifecycle = .init initState :: StateCall.visits initState path :=
    hpath.lifecycle
  have hcurrent : g.currentState = path.getLastD initState := hpath.current
  rw [hbegun, hlifecycle, hcurrent]
  exact ⟨StateCall.disciplined_visits initState path, StateCall.current_path initState path, rfl⟩

end Fsm

end SnipeIt.Util
