import Mathlib.Data.BitVec
import SnipeIt.Support.Run

/-! # The WiFi binding of the app (`WifiBinder.kt`, `SniperViewModel.kt`)

A connection to a device starts with a request to Android for the joined WiFi
network. It waits for the callback of the request and then opens a WebSocket on
another thread. The binder remembers the last request only, and the client the
last WebSocket.
-/

namespace SnipeIt.Phone
open Support

/-- What a connection needs of a `Device`. -/
structure Device where
  ipAddress : String
deriving DecidableEq

def fallbackGateway : String := "10.42.1.1"

def addressByte (gw : BitVec 32) (shift : ℕ) : String := toString (gw >>> shift &&& 255).toNat

/-- `getGatewayIp` of the gateway in `dhcpInfo`; `none` stands for an exception. -/
def getGatewayIp : Option (BitVec 32) → String
  | none => fallbackGateway
  | some gw =>
    if gw = 0 then fallbackGateway
    else
      -- the lowest byte is the first one of the address
      addressByte gw 0 ++ "." ++ addressByte gw 8 ++ "." ++ addressByte gw 16 ++ "." ++
        addressByte gw 24

example : getGatewayIp (some 0x0101A8C0) = "192.168.1.1" := by decide

def targetIp (device : Device) (gateway : Option (BitVec 32)) : String :=
  if getGatewayIp gateway ≠ fallbackGateway then getGatewayIp gateway else device.ipAddress

/-- The view model with all that it has asked Android, the repository and the client for. -/
structure AppLink where
  /-- The view model has not been cleared. -/
  alive : Bool
  selectedDevice : Option Device
  /-- The number of callback objects so far. -/
  callbacks : ℕ
  /-- The callbacks of the requests that Android serves. -/
  registered : List ℕ
  processNetwork : Option ℕ
  callback : Option ℕ
  boundNetwork : Option ℕ
  /-- The coroutines that wait in `bindToWifi`, each with its callback. -/
  binding : List (ℕ × Device)
  /-- Those that have been resumed but have not run yet. -/
  resumed : List (ℕ × Device)
  /-- The calls of `connect` that the other dispatcher has not finished. -/
  connecting : List String
  repositoryIp : Option String
  clientIp : Option String
  /-- The number of WebSocket objects so far. -/
  sockets : ℕ
  /-- Those that nobody has closed. -/
  unclosed : List ℕ
  webSocketClient : Option ℕ

inductive LinkAct where
  /-- `granted`: `requestNetwork` does not throw. -/
  | selectDevice (device : Device) (granted : Bool)
  | connectToSystem (granted : Bool)
  | onAvailable (callback network : ℕ)
  | onLost (callback network : ℕ)
  /-- A coroutine runs on to `repository.connectToSystem`. -/
  | resume (callback : ℕ) (device : Device) (gateway : Option (BitVec 32))
  /-- `RaspberryPiClient.connect` on the other dispatcher. -/
  | connect (ipAddress : String)
  /-- A WebSocket is closed from outside. -/
  | socketClosed (socket : ℕ)
  | disconnectFromSystem
  | goBackToHome
  | onCleared

namespace AppLink

def init : AppLink :=
  ⟨true, none, 0, [], none, none, none, [], [], [], none, none, 0, [], none⟩

/-- `connectToDevice` up to where `bindToWifi` suspends or throws. -/
def connectToDevice (s : AppLink) (device : Device) (granted : Bool) : AppLink :=
  { s with
    callbacks := s.callbacks + 1
    callback := some s.callbacks
    registered := if granted then s.registered ++ [s.callbacks] else s.registered
    binding := if granted then s.binding ++ [(s.callbacks, device)] else s.binding }

def connectToSystem (s : AppLink) (granted : Bool) : AppLink :=
  match s.selectedDevice with
  | none => s
  | some device => s.connectToDevice device granted

/-- The callback's `onAvailable`. The coroutine is active the first time only. -/
def onAvailable (s : AppLink) (callback network : ℕ) : AppLink :=
  { s with
    processNetwork := some network
    boundNetwork := some network
    binding := s.binding.filter (·.1 ≠ callback)
    resumed := s.resumed ++ s.binding.filter (·.1 = callback) }

def onLost (s : AppLink) (network : ℕ) : AppLink :=
  if s.boundNetwork = some network then { s with processNetwork := none, boundNetwork := none }
  else s

def release (s : AppLink) : AppLink :=
  { s with
    processNetwork := none
    registered := s.registered.filter (some · ≠ s.callback)
    callback := none
    boundNetwork := none }

def disconnectRepository (s : AppLink) : AppLink :=
  { s with
    unclosed := s.unclosed.filter (some · ≠ s.webSocketClient)
    webSocketClient := none
    repositoryIp := none }

def resume (s : AppLink) (callback : ℕ) (device : Device) (gateway : Option (BitVec 32)) :
    AppLink :=
  { s with
    resumed := s.resumed.erase (callback, device)
    repositoryIp := some (targetIp device gateway)
    connecting := s.connecting ++ [targetIp device gateway] }

def connect (s : AppLink) (ipAddress : String) : AppLink :=
  { s with
    connecting := s.connecting.erase ipAddress
    clientIp := some ipAddress
    sockets := s.sockets + 1
    unclosed := s.unclosed ++ [s.sockets]
    webSocketClient := some s.sockets }

/-- The end of the view model. Its scope is cancelled, and a coroutine that has not come out of
`bindToWifi` takes back its own request. A call of `connect` that is under way goes on. -/
def onCleared (s : AppLink) : AppLink :=
  release { s with
    alive := false
    registered := s.registered.filter fun cb => (s.binding ++ s.resumed).all (·.1 ≠ cb)
    binding := []
    resumed := [] }

def apply (s : AppLink) : LinkAct → AppLink
  | .selectDevice device granted =>
    { s with selectedDevice := some device }.connectToDevice device granted
  | .connectToSystem granted => s.connectToSystem granted
  | .onAvailable callback network => s.onAvailable callback network
  | .onLost _ network => s.onLost network
  | .resume callback device gateway => s.resume callback device gateway
  | .connect ipAddress => s.connect ipAddress
  | .socketClosed socket => { s with unclosed := s.unclosed.filter (· ≠ socket) }
  | .disconnectFromSystem => s.disconnectRepository.release
  | .goBackToHome => { s with selectedDevice := none }.disconnectRepository.release
  | .onCleared => s.onCleared

/-- The user's actions need the view model, Android calls registered callbacks only, and the other
steps need something to go on with. -/
def Enabled (s : AppLink) : LinkAct → Prop
  | .selectDevice _ _ | .connectToSystem _ | .disconnectFromSystem | .goBackToHome | .onCleared =>
    s.alive = true
  | .onAvailable callback _ | .onLost callback _ => callback ∈ s.registered
  | .resume callback device _ => (callback, device) ∈ s.resumed
  | .connect ipAddress => ipAddress ∈ s.connecting
  | .socketClosed socket => socket ∈ s.unclosed

instance (s : AppLink) : (act : LinkAct) → Decidable (s.Enabled act)
  | .selectDevice _ _ | .connectToSystem _ | .disconnectFromSystem | .goBackToHome | .onCleared =>
    inferInstanceAs (Decidable (s.alive = true))
  | .onAvailable callback _ | .onLost callback _ =>
    inferInstanceAs (Decidable (callback ∈ s.registered))
  | .resume callback device _ => inferInstanceAs (Decidable ((callback, device) ∈ s.resumed))
  | .connect ipAddress => inferInstanceAs (Decidable (ipAddress ∈ s.connecting))
  | .socketClosed socket => inferInstanceAs (Decidable (socket ∈ s.unclosed))

def Step (s : AppLink) (act : LinkAct) (t : AppLink) : Prop := s.Enabled act ∧ t = s.apply act

/-- The app can undo all that it has done: no request and no WebSocket is held that it does not
remember, a release leaves nothing behind, and the commands go to the host of the WebSocket. -/
structure Tidy (s : AppLink) : Prop where
  requests : ∀ cb ∈ s.registered, s.callback = some cb
  sockets : ∀ k ∈ s.unclosed, s.webSocketClient = some k
  released : s.callback = none → s.processNetwork = none ∧ s.unclosed = []
  address : s.connecting = [] → ∀ ip ∈ s.repositoryIp, s.clientIp = some ip

/-- The steps of an orderly user: a device is connected to when no request is left, no connection
is given up before its WebSocket is there, and only the newest one gets it. -/
def Orderly (s : AppLink) : LinkAct → Prop
  | .selectDevice _ _ => s.registered = []
  | .connectToSystem _ => s.selectedDevice ≠ none → s.registered = []
  | .connect ipAddress => s.callback ≠ none ∧ s.unclosed = [] ∧
      (s.connecting.erase ipAddress = [] → ∀ ip ∈ s.repositoryIp, ip = ipAddress)
  | .onCleared => s.unclosed = []
  | _ => True

/-- Callbacks and WebSockets are numbered from zero. -/
structure Numbered (s : AppLink) : Prop where
  callbacks : ∀ cb ∈ s.registered, cb < s.callbacks
  sockets : ∀ k ∈ s.unclosed, k < s.sockets

variable {s t : AppLink} {act : LinkAct} {acts : List LinkAct} {device : Device} {granted : Bool}
  {ipAddress : String}

theorem Numbered.connectToDevice (h : s.Numbered) :
    (s.connectToDevice device granted).Numbered where
  callbacks := by
    intro cb hcb
    cases granted with
    | false => exact Nat.lt_succ_of_lt (h.callbacks cb hcb)
    | true =>
      rcases List.mem_append.mp hcb with hold | hnew
      · exact Nat.lt_succ_of_lt (h.callbacks cb hold)
      · rw [List.mem_singleton.mp hnew]
        exact Nat.lt_succ_self _
  sockets := h.sockets

theorem Numbered.connectToSystem (h : s.Numbered) : (s.connectToSystem granted).Numbered := by
  unfold AppLink.connectToSystem
  split
  · exact h
  · exact h.connectToDevice

theorem Numbered.release (h : s.Numbered) : s.release.Numbered :=
  ⟨fun cb hcb => h.callbacks cb (List.mem_of_mem_filter hcb), h.sockets⟩

theorem Numbered.disconnectRepository (h : s.Numbered) : s.disconnectRepository.Numbered :=
  ⟨h.callbacks, fun k hk => h.sockets k (List.mem_of_mem_filter hk)⟩

theorem Numbered.onCleared (h : s.Numbered) : s.onCleared.Numbered := by
  refine Numbered.release ⟨fun cb hcb => h.callbacks cb (List.mem_of_mem_filter hcb), h.sockets⟩

theorem Numbered.connect (h : s.Numbered) : (s.connect ipAddress).Numbered where
  callbacks := h.callbacks
  sockets := by
    intro k hk
    rcases List.mem_append.mp hk with hold | hnew
    · exact Nat.lt_succ_of_lt (h.sockets k hold)
    · rw [List.mem_singleton.mp hnew]
      exact Nat.lt_succ_self _

theorem Numbered.onLost (h : s.Numbered) (network : ℕ) : (s.onLost network).Numbered := by
  unfold AppLink.onLost
  split
  · exact ⟨h.callbacks, h.sockets⟩
  · exact h

theorem Numbered.step (h : s.Numbered) (hstep : Step s act t) : t.Numbered := by
  obtain ⟨-, rfl⟩ := hstep
  cases act with
  | selectDevice device granted => exact Numbered.connectToDevice ⟨h.callbacks, h.sockets⟩
  | connectToSystem granted => exact h.connectToSystem
  | onAvailable callback network => exact ⟨h.callbacks, h.sockets⟩
  | onLost callback network => exact h.onLost network
  | resume callback device gateway => exact ⟨h.callbacks, h.sockets⟩
  | connect ipAddress => exact h.connect
  | socketClosed socket =>
    exact ⟨h.callbacks, fun k hk => h.sockets k (List.mem_of_mem_filter hk)⟩
  | disconnectFromSystem => exact h.disconnectRepository.release
  | goBackToHome => exact Numbered.release (Numbered.disconnectRepository ⟨h.callbacks, h.sockets⟩)
  | onCleared => exact h.onCleared

/-- A request that may be registered and a new callback go together when none was left. -/
theorem tidy_connectToDevice_iff (hs : s.Tidy) (hn : s.Numbered) :
    (s.connectToDevice device granted).Tidy ↔ s.registered = [] := by
  constructor
  · intro ht
    refine List.eq_nil_iff_forall_not_mem.mpr fun cb hcb => ?_
    have hmem : cb ∈ (s.connectToDevice device granted).registered := by
      cases granted with
      | false => exact hcb
      | true => exact List.mem_append_left _ hcb
    have hnew : s.callbacks = cb := Option.some.inj (ht.requests cb hmem)
    exact (hn.callbacks cb hcb).ne' hnew
  · intro hnil
    refine ⟨fun cb hcb => ?_, hs.sockets, fun hnone => ?_, hs.address⟩
    · cases granted with
      | false =>
        have hold : cb ∈ s.registered := hcb
        rw [hnil] at hold
        cases hold
      | true =>
        have hold : cb ∈ s.registered ++ [s.callbacks] := hcb
        rw [hnil, List.nil_append, List.mem_singleton] at hold
        rw [hold]
        rfl
    · cases hnone

theorem tidy_connect_iff (hs : s.Tidy) (hn : s.Numbered) :
    (s.connect ipAddress).Tidy ↔ s.Orderly (.connect ipAddress) := by
  constructor
  · intro ht
    refine ⟨fun hnone => ?_, List.eq_nil_iff_forall_not_mem.mpr fun k hk => ?_,
      fun hlast ip hip => ?_⟩
    · exact List.append_ne_nil_of_right_ne_nil _ (List.cons_ne_nil _ _) (ht.released hnone).2
    · have hnew : s.sockets = k := Option.some.inj (ht.sockets k (List.mem_append_left _ hk))
      exact (hn.sockets k hk).ne' hnew
    · exact (Option.some.inj (ht.address hlast ip hip)).symm
  · rintro ⟨hcallback, hnil, hlast⟩
    refine ⟨hs.requests, fun k hk => ?_, fun hnone => absurd hnone hcallback,
      fun hempty ip hip => ?_⟩
    · have hk' : k ∈ s.unclosed ++ [s.sockets] := hk
      rw [hnil, List.nil_append, List.mem_singleton] at hk'
      rw [hk']
      rfl
    · rw [hlast hempty ip hip]
      rfl

/-- A release gives back the only request of a tidy app. -/
theorem registered_release (h : ∀ cb ∈ s.registered, s.callback = some cb) :
    s.release.registered = [] := by
  refine List.filter_eq_nil_iff.mpr fun cb hcb => ?_
  rw [h cb hcb]
  simp

theorem unclosed_disconnectRepository (hs : s.Tidy) : s.disconnectRepository.unclosed = [] := by
  refine List.filter_eq_nil_iff.mpr fun k hk => ?_
  rw [hs.sockets k hk]
  simp

theorem tidy_disconnect (hs : s.Tidy) : s.disconnectRepository.release.Tidy := by
  have hrequests : s.disconnectRepository.release.registered = [] :=
    registered_release hs.requests
  have hsockets : s.disconnectRepository.release.unclosed = [] := unclosed_disconnectRepository hs
  refine ⟨?_, ?_, fun _ => ⟨rfl, hsockets⟩, fun _ ip hip => ?_⟩
  · rw [hrequests]
    exact fun _ h => absurd h List.not_mem_nil
  · rw [hsockets]
    exact fun _ h => absurd h List.not_mem_nil
  · cases hip

theorem tidy_onCleared_iff (hs : s.Tidy) : s.onCleared.Tidy ↔ s.unclosed = [] := by
  constructor
  · exact fun ht => (ht.released rfl).2
  · intro hnil
    refine ⟨fun cb hcb => ?_, hs.sockets, fun _ => ⟨rfl, hnil⟩, hs.address⟩
    -- what is left after the coroutines have taken back their requests is the binder's
    obtain ⟨hcb, hother⟩ := List.mem_filter.mp hcb
    rw [hs.requests cb (List.mem_of_mem_filter hcb)] at hother
    simp at hother

theorem tidy_onLost (hs : s.Tidy) (network : ℕ) : (s.onLost network).Tidy := by
  unfold onLost
  split
  · exact ⟨hs.requests, hs.sockets, fun hnone => ⟨rfl, (hs.released hnone).2⟩, hs.address⟩
  · exact hs

/-- From a tidy state exactly the orderly steps lead to a tidy one. -/
theorem tidy_step_iff (hs : s.Tidy) (hn : s.Numbered) (hstep : Step s act t) :
    t.Tidy ↔ s.Orderly act := by
  obtain ⟨henabled, rfl⟩ := hstep
  cases act with
  | selectDevice device granted =>
    exact tidy_connectToDevice_iff (s := { s with selectedDevice := some device })
      ⟨hs.requests, hs.sockets, hs.released, hs.address⟩ ⟨hn.callbacks, hn.sockets⟩
  | connectToSystem granted =>
    rcases hdevice : s.selectedDevice with _ | device
    · simp [apply, connectToSystem, Orderly, hdevice, hs]
    · simpa [apply, connectToSystem, Orderly, hdevice] using tidy_connectToDevice_iff hs hn
  | onAvailable callback network =>
    refine iff_of_true ⟨hs.requests, hs.sockets, fun hnone => ?_, hs.address⟩ trivial
    exact absurd ((hs.requests callback henabled).symm.trans hnone) (Option.some_ne_none _)
  | onLost callback network => exact iff_of_true (tidy_onLost hs network) trivial
  | resume callback device gateway =>
    refine iff_of_true ⟨hs.requests, hs.sockets, hs.released, fun hempty => ?_⟩ trivial
    exact absurd hempty (List.append_ne_nil_of_right_ne_nil _ (List.cons_ne_nil _ _))
  | connect ipAddress => exact tidy_connect_iff hs hn
  | socketClosed socket =>
    refine iff_of_true ⟨hs.requests, fun k hk => hs.sockets k (List.mem_of_mem_filter hk),
      fun hnone => ⟨(hs.released hnone).1, ?_⟩, hs.address⟩ trivial
    rw [apply, (hs.released hnone).2, List.filter_nil]
  | disconnectFromSystem => exact iff_of_true (tidy_disconnect hs) trivial
  | goBackToHome =>
    exact iff_of_true (tidy_disconnect (s := { s with selectedDevice := none })
      ⟨hs.requests, hs.sockets, hs.released, hs.address⟩) trivial
  | onCleared => exact tidy_onCleared_iff hs

theorem init_tidy : init.Tidy :=
  ⟨fun _ h => absurd h List.not_mem_nil, fun _ h => absurd h List.not_mem_nil,
    fun _ => ⟨rfl, rfl⟩, fun _ _ h => absurd h (Option.not_mem_none _)⟩

theorem init_numbered : init.Numbered :=
  ⟨fun _ h => absurd h List.not_mem_nil, fun _ h => absurd h List.not_mem_nil⟩

/-- A request whose coroutine has come out of `bindToWifi` and that the binder does not remember. -/
structure Forgotten (s : AppLink) (cb : ℕ) : Prop where
  registered : cb ∈ s.registered
  made : cb < s.callbacks
  callback : s.callback ≠ some cb
  gone : ∀ p ∈ s.binding ++ s.resumed, p.1 ≠ cb

variable {cb : ℕ}

/-- The next request takes the place of the one that the binder remembers. -/
theorem forgotten_connectToDevice (hcb : cb ∈ s.registered) (hmade : cb < s.callbacks)
    (hgone : ∀ p ∈ s.binding ++ s.resumed, p.1 ≠ cb) :
    (s.connectToDevice device granted).Forgotten cb := by
  have hnew : s.callbacks ≠ cb := hmade.ne'
  refine ⟨?_, Nat.lt_succ_of_lt hmade, fun heq => hnew (Option.some.inj heq), ?_⟩
  · cases granted with
    | false => exact hcb
    | true => exact List.mem_append_left _ hcb
  · cases granted with
    | false => exact hgone
    | true =>
      intro p hp
      rcases List.mem_append.mp hp with hwaits | hresumed
      · rcases List.mem_append.mp hwaits with hold | hlast
        · exact hgone p (List.mem_append_left _ hold)
        · rw [List.mem_singleton.mp hlast]
          exact hnew
      · exact hgone p (List.mem_append_right _ hresumed)

theorem Forgotten.connectToDevice (h : s.Forgotten cb) :
    (s.connectToDevice device granted).Forgotten cb :=
  forgotten_connectToDevice h.registered h.made h.gone

theorem Forgotten.release (h : s.Forgotten cb) : s.release.Forgotten cb where
  registered := List.mem_filter.mpr ⟨h.registered, by simpa using h.callback.symm⟩
  made := h.made
  callback := (Option.some_ne_none cb).symm
  gone := h.gone

theorem Forgotten.onCleared (h : s.Forgotten cb) : s.onCleared.Forgotten cb := by
  refine Forgotten.release ⟨List.mem_filter.mpr ⟨h.registered, ?_⟩, h.made, h.callback, ?_⟩
  · exact List.all_eq_true.mpr fun p hp => decide_eq_true (h.gone p hp)
  · exact fun p hp => absurd hp List.not_mem_nil

theorem Forgotten.step (h : s.Forgotten cb) (hstep : Step s act t) : t.Forgotten cb := by
  have hkeep {u : AppLink} (hr : u.registered = s.registered) (hm : u.callbacks = s.callbacks)
      (hc : u.callback = s.callback)
      (hg : ∀ p ∈ u.binding ++ u.resumed, p ∈ s.binding ++ s.resumed) : u.Forgotten cb :=
    ⟨hr ▸ h.registered, hm ▸ h.made, hc ▸ h.callback, fun p hp => h.gone p (hg p hp)⟩
  obtain ⟨-, rfl⟩ := hstep
  cases act with
  | selectDevice device granted => exact Forgotten.connectToDevice (hkeep rfl rfl rfl fun _ => id)
  | connectToSystem granted =>
    simp only [apply, AppLink.connectToSystem]
    split
    · exact h
    · exact h.connectToDevice
  | onAvailable callback network =>
    refine hkeep rfl rfl rfl fun p hp => ?_
    -- a coroutine that waited is resumed
    simp only [apply, AppLink.onAvailable, List.mem_append, List.mem_filter] at hp ⊢
    tauto
  | onLost callback network =>
    simp only [apply, AppLink.onLost]
    split
    · exact hkeep rfl rfl rfl fun _ => id
    · exact h
  | resume callback device gateway =>
    refine hkeep rfl rfl rfl fun p hp => ?_
    rcases List.mem_append.mp hp with hwaits | hresumed
    · exact List.mem_append_left _ hwaits
    · exact List.mem_append_right _ (List.mem_of_mem_erase hresumed)
  | connect ipAddress => exact hkeep rfl rfl rfl fun _ => id
  | socketClosed socket => exact hkeep rfl rfl rfl fun _ => id
  | disconnectFromSystem => exact Forgotten.release (hkeep rfl rfl rfl fun _ => id)
  | goBackToHome => exact Forgotten.release (hkeep rfl rfl rfl fun _ => id)
  | onCleared => exact h.onCleared

/-- Nothing that the app can do gives back a request that the binder has forgotten, not even the
end of the view model. -/
theorem forgotten_for_good (h : s.Forgotten cb) (hrun : Run Step s acts t) : cb ∈ t.registered := by
  have ht : t.Forgotten cb :=
    hrun.invariant (P := fun s => s.Forgotten cb) h fun _ _ _ hs hstep => Forgotten.step hs hstep
  exact ht.registered

theorem reachable_numbered (hrun : Run Step init acts s) : s.Numbered :=
  hrun.invariant init_numbered fun _ _ _ hs hstep => Numbered.step hs hstep

/-- When a device is selected while Android still serves a request whose coroutine has gone on,
that request stays for as long as the app lives. -/
theorem selected_again_leaks {u : AppLink} {later : List LinkAct} (hrun : Run Step init acts s)
    (hcb : cb ∈ s.registered) (hgone : ∀ p ∈ s.binding ++ s.resumed, p.1 ≠ cb)
    (hselect : Step s (.selectDevice device granted) u) (hlater : Run Step u later t) :
    cb ∈ t.registered := by
  have hmade : cb < s.callbacks := (reachable_numbered hrun).callbacks cb hcb
  refine forgotten_for_good ?_ hlater
  obtain ⟨-, rfl⟩ := hselect
  exact forgotten_connectToDevice (s := { s with selectedDevice := some device }) hcb hmade hgone

/-- One connection that got its network. -/
def bound : AppLink :=
  ((init.apply (.selectDevice ⟨fallbackGateway⟩ true)).apply (.onAvailable 0 7)).apply
    (.resume 0 ⟨fallbackGateway⟩ none)

theorem selected_again_leaks_cleared :
    0 ∈ ((bound.apply (.selectDevice ⟨fallbackGateway⟩ true)).apply .onCleared).registered := by
  let again := bound.apply (.selectDevice ⟨fallbackGateway⟩ true)
  have hrun : Run Step init [.selectDevice ⟨fallbackGateway⟩ true, .onAvailable 0 7,
      .resume 0 ⟨fallbackGateway⟩ none] bound :=
    Run.cons ⟨rfl, rfl⟩ (Run.cons ⟨by decide, rfl⟩ (Run.single ⟨by decide, rfl⟩))
  have hselect : Step bound (.selectDevice ⟨fallbackGateway⟩ true) again := ⟨rfl, rfl⟩
  have hlater : Run Step again [.onCleared] (again.apply .onCleared) := Run.single ⟨rfl, rfl⟩
  exact selected_again_leaks hrun (by decide) (by decide) hselect hlater

end AppLink

end SnipeIt.Phone
