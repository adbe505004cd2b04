import SnipeIt.Detector.DetectionMessage
import SnipeIt.Support.Outputs

/-! # Sessions of the detector (`person_streamer.py`)

A session looks for STOP, reads a frame, and runs the model on every frame whose
number is a multiple of the interval. A video can start again at its end, and its
frames can be held back until it is their time.
-/

namespace SnipeIt.Detector
open Support

variable {K : Type*} [Field K] [LinearOrder K] [IsStrictOrderedRing K] [FloorRing K]

/-- A call of `send_detection`, with the number of the frame and whether it was sent. -/
structure SentDetection (K : Type*) where
  frameIdx : ℕ
  timestampMs : ℤ
  detections : List (DetectionPayload K)
  sent : Bool

/-- The numbers below `n` of the frames that the model sees. -/
def due (interval n : ℕ) : List ℕ := (List.range n).filter fun k => k % interval = 0

/-- The interval that a session goes by. -/
def effective (frameInterval : ℤ) : ℤ := if frameInterval ≤ 0 then 1 else frameInterval

theorem effective_effective (n : ℤ) : effective (effective n) = effective n := by
  unfold effective
  split_ifs <;> omega

/-! ## A video -/

/-- What `process_session` is called with, and the file: its size, what the model finds in each of
its frames, and its own frame rate. -/
structure Video (K : Type*) where
  detector : EdgeTPUPersonDetector K
  width : ℕ
  height : ℕ
  frames : List (ModelOutput K)
  capFps : K
  fps : K
  loop : Bool
  frameInterval : ℤ
  realtime : Bool

def Video.fpsUsed (v : Video K) : K :=
  if 1 / 1000 < v.capFps then v.capFps else if 1 / 1000 < v.fps then v.fps else 30

/-- What one turn finds: STOP, whether the connection is still there after the look for a command,
whether a frame that the file has can be read, the position of the file in milliseconds behind it,
whether a message can be sent, the time that all this takes, and by how much a sleep is too long. -/
structure Turn (K : Type*) where
  stop : Bool
  connected : Bool
  reads : Bool
  posMsec : K
  sends : Bool
  work : K
  late : K

/-- The session at the head of its loop. The file is at `position`. -/
structure VideoSession (K : Type*) where
  running : Bool
  connected : Bool
  position : ℕ
  frameIdx : ℕ
  frameInterval : ℤ
  sentMsgs : ℕ
  clock : K
  sessionStart : K
  messages : List (SentDetection K)

/-- `detections_payload` in `process_session` -/
def videoPayload (dets : List (Detection K)) : List (DetectionPayload K) :=
  dets.zipIdx.map fun d =>
    { detectionId := (d.2 + 1).repr
      objClass := "HUMAN"
      confidence := d.1.score
      bbox := d.1.bboxXywh }

namespace VideoSession

/-- A session on a connected client that begins at `clock`. -/
def start (v : Video K) (clock : K) : VideoSession K :=
  ⟨true, true, 0, 0, v.frameInterval, 0, clock, clock, []⟩

/-- `ts_ms` -/
def timestampMs (v : Video K) (frameIdx : ℕ) (posMsec : K) : ℤ :=
  if halfEven posMsec ≤ 0 then halfEven (frameIdx / v.fpsUsed * 1000) else halfEven posMsec

def send (v : Video K) (s : VideoSession K) (e : Turn K) (dets : List (Detection K)) :
    VideoSession K :=
  { s with
    connected := s.connected && e.sends
    sentMsgs := s.sentMsgs + 1
    messages := s.messages ++
      [⟨s.frameIdx, timestampMs v s.frameIdx e.posMsec, videoPayload dets,
        s.connected && e.sends⟩] }

/-- The end of a turn, with the sleep until the time of the next frame. -/
def pace (v : Video K) (s : VideoSession K) (e : Turn K) : VideoSession K :=
  let frameIdx := s.frameIdx + 1
  let elapsed := s.clock + e.work - s.sessionStart
  let target := frameIdx * (1 / v.fpsUsed)
  { s with
    frameIdx := frameIdx
    clock := s.clock + e.work +
      if v.realtime = true ∧ 0 < target - elapsed then target - elapsed + e.late else 0 }

/-- A turn of the loop. An exception of `detect` ends the session as well. -/
def turn (v : Video K) (s : VideoSession K) (e : Turn K) : VideoSession K :=
  if s.running = false then s
  else if s.connected = false then { s with running := false }
  else
    let s := { s with connected := e.connected }
    if e.stop then { s with running := false }
    else match if e.reads then v.frames[s.position]? else none with
      | none =>
        if v.loop then
          { s with
            position := 0
            frameIdx := 0
            clock := s.clock + e.work
            sessionStart := s.clock + e.work }
        else { s with running := false }
      | some output =>
        let s := { s with
          position := s.position + 1
          frameInterval := effective s.frameInterval }
        if (s.frameIdx : ℤ) % s.frameInterval = 0 then
          match detect v.detector v.width v.height output with
          | none => { s with running := false }
          | some dets => (s.send v e dets).pace v e
        else s.pace v e

variable {v : Video K} {s : VideoSession K} {e : Turn K}

/-- What reading a frame changes before the model sees it. -/
def read (s : VideoSession K) (e : Turn K) : VideoSession K :=
  { s with
    connected := e.connected
    position := s.position + 1
    frameInterval := effective s.frameInterval }

omit [IsStrictOrderedRing K] in
/-- A turn does nothing more, starts the file again, or passes a frame, which it sends if the model
has to see it. -/
theorem turn_cases (v : Video K) (s : VideoSession K) (e : Turn K) :
    (∃ connected position frameInterval, (connected = true → s.connected = true) ∧
      effective frameInterval = effective s.frameInterval ∧
      s.turn v e = { s with running := false, connected, position, frameInterval }) ∨
    (s.connected = true ∧ v.loop = true ∧
      s.turn v e = { s with
        connected := e.connected
        position := 0
        frameIdx := 0
        clock := s.clock + e.work
        sessionStart := s.clock + e.work }) ∨
    ∃ output, s.running = true ∧ s.connected = true ∧ v.frames[s.position]? = some output ∧
      ((¬ (s.frameIdx : ℤ) % effective s.frameInterval = 0 ∧ s.turn v e = pace v (s.read e) e) ∨
        ((s.frameIdx : ℤ) % effective s.frameInterval = 0 ∧
          ∃ dets, detect v.detector v.width v.height output = some dets ∧
            s.turn v e = pace v ((s.read e).send v e dets) e)) := by
  unfold turn
  by_cases hrunning : s.running = false
  · rw [if_pos hrunning]
    exact .inl ⟨s.connected, s.position, s.frameInterval, id, rfl, by rw [← hrunning]⟩
  rw [if_neg hrunning]
  by_cases hconnected : s.connected = false
  · rw [if_pos hconnected]
    exact .inl ⟨s.connected, s.position, s.frameInterval, id, rfl, rfl⟩
  rw [if_neg hconnected]
  have hrun : s.running = true := by simpa using hrunning
  have hconn : s.connected = true := by simpa using hconnected
  cases hstop : e.stop with
  | true => exact .inl ⟨e.connected, s.position, s.frameInterval, fun _ => hconn, rfl, rfl⟩
  | false =>
    simp only [Bool.false_eq_true, if_false]
    cases hread : if e.reads then v.frames[s.position]? else none with
    | none =>
      cases hloop : v.loop with
      | true => exact .inr (.inl ⟨hconn, rfl, rfl⟩)
      | false => exact .inl ⟨e.connected, s.position, s.frameInterval, fun _ => hconn, rfl, rfl⟩
    | some output =>
      have hframe : v.frames[s.position]? = some output := by
        split_ifs at hread
        exact hread
      dsimp only
      by_cases hmod : (s.frameIdx : ℤ) % effective s.frameInterval = 0
      · rw [if_pos hmod]
        cases hdets : detect v.detector v.width v.height output with
        | none =>
          exact .inl ⟨e.connected, s.position + 1, effective s.frameInterval, fun _ => hconn,
            effective_effective _, rfl⟩
        | some dets =>
          exact .inr (.inr ⟨output, hrun, hconn, hframe, .inr ⟨hmod, dets, hdets, rfl⟩⟩)
      · rw [if_neg hmod]
        exact .inr (.inr ⟨output, hrun, hconn, hframe, .inl ⟨hmod, rfl⟩⟩)

end VideoSession

/-! ## The frames -/

theorem due_succ (interval n : ℕ) :
    due interval (n + 1) = due interval n ++ if n % interval = 0 then [n] else [] := by
  rw [due, List.range_succ, List.filter_append]
  by_cases h : n % interval = 0
  · simp [due, h]
  · simp [due, h]

theorem effective_pos (n : ℤ) : 0 < effective n := by
  unfold effective
  split_ifs <;> omega

/-- The remainder of Python for a positive interval. -/
theorem mod_effective (k : ℕ) (n : ℤ) :
    (k : ℤ) % effective n = 0 ↔ k % (effective n).toNat = 0 := by
  have hpos := effective_pos n
  rw [← Int.toNat_of_nonneg hpos.le, Int.toNat_natCast]
  norm_cast

namespace VideoSession

/-- What a session has sent: the due frames of each pass over the file, with what the model found
in them. Only the last message can be lost, and nothing follows it. -/
structure Sampled (v : Video K) (s : VideoSession K) : Prop where
  interval : effective s.frameInterval = effective v.frameInterval
  position : s.frameIdx ≤ v.frames.length ∧ (s.running = true → s.position = s.frameIdx)
  frames : ∃ passes : List ℕ, (∀ n ∈ passes, n ≤ v.frames.length) ∧
    (v.loop = false → passes = []) ∧ s.messages.map (·.frameIdx) =
      (passes.map (due (effective v.frameInterval).toNat)).flatten ++
        due (effective v.frameInterval).toNat s.frameIdx
  content : ∀ m ∈ s.messages, ∃ output dets, v.frames[m.frameIdx]? = some output ∧
    detect v.detector v.width v.height output = some dets ∧ m.detections = videoPayload dets
  count : s.sentMsgs = s.messages.length
  sent : (s.connected = true → ∀ m ∈ s.messages, m.sent = true) ∧
    ∀ m ∈ s.messages.dropLast, m.sent = true

variable {v : Video K} {s : VideoSession K} {e : Turn K}

omit [IsStrictOrderedRing K] in
theorem start_sampled (v : Video K) (clock : K) : Sampled v (start v clock) where
  interval := rfl
  position := ⟨Nat.zero_le _, fun _ => rfl⟩
  frames := ⟨[], by simp, fun _ => rfl, rfl⟩
  content := by simp [start]
  count := rfl
  sent := by simp [start]

omit [IsStrictOrderedRing K] in
theorem Sampled.pass (h : Sampled v s) (hconnected : s.connected = true)
    (hlt : s.frameIdx < v.frames.length) (hposition : s.position = s.frameIdx)
    (hmod : ¬ (s.frameIdx : ℤ) % effective s.frameInterval = 0) :
    Sampled v (pace v (s.read e) e) where
  interval := (effective_effective _).trans h.interval
  position := ⟨hlt, fun _ => congrArg (· + 1) hposition⟩
  frames := by
    obtain ⟨passes, hle, hpasses, hframes⟩ := h.frames
    refine ⟨passes, hle, hpasses, ?_⟩
    rw [h.interval, mod_effective] at hmod
    change s.messages.map (·.frameIdx) = _ ++ due _ (s.frameIdx + 1)
    rw [due_succ, if_neg hmod, List.append_nil, hframes]
  content := h.content
  count := h.count
  sent := ⟨fun _ => h.sent.1 hconnected, h.sent.2⟩

omit [IsStrictOrderedRing K] in
theorem Sampled.send (h : Sampled v s) (hconnected : s.connected = true)
    (hposition : s.position = s.frameIdx)
    (hmod : (s.frameIdx : ℤ) % effective s.frameInterval = 0) {output : ModelOutput K}
    {dets : List (Detection K)} (hframe : v.frames[s.position]? = some output)
    (hdets : detect v.detector v.width v.height output = some dets) :
    Sampled v (pace v ((s.read e).send v e dets) e) where
  interval := (effective_effective _).trans h.interval
  position := by
    rw [hposition] at hframe
    exact ⟨(List.getElem?_eq_some_iff.mp hframe).1, fun _ => congrArg (· + 1) hposition⟩
  frames := by
    obtain ⟨passes, hle, hpasses, hframes⟩ := h.frames
    refine ⟨passes, hle, hpasses, ?_⟩
    rw [h.interval, mod_effective] at hmod
    change (s.messages ++ [_]).map SentDetection.frameIdx = _
    rw [List.map_append, hframes, List.append_assoc]
    change _ ++ (_ ++ [s.frameIdx]) = _ ++ due _ (s.frameIdx + 1)
    rw [due_succ, if_pos hmod]
  content := by
    intro m hm
    rcases List.mem_append.mp hm with hold | hnew
    · exact h.content m hold
    · rw [List.mem_singleton.mp hnew]
      exact ⟨output, dets, hposition ▸ hframe, hdets, rfl⟩
  count := by
    change s.sentMsgs + 1 = (s.messages ++ [_]).length
    rw [List.length_append, h.count, List.length_singleton]
  sent := by
    have hall := h.sent.1 hconnected
    constructor
    · intro hstill m hm
      rcases List.mem_append.mp hm with hold | hnew
      · exact hall m hold
      · rw [List.mem_singleton.mp hnew]
        exact hstill
    · intro m hm
      have hdrop : m ∈ (s.messages ++ [_]).dropLast := hm
      rw [List.dropLast_concat] at hdrop
      exact hall m hdrop

omit [IsStrictOrderedRing K] in
theorem turn_sampled (h : Sampled v s) (e : Turn K) : Sampled v (s.turn v e) := by
  rcases turn_cases v s e with ⟨connected, position, frameInterval, hstill, hinterval, heq⟩ |
    ⟨hconnected, hloop, heq⟩ | ⟨output, hrunning, hconnected, hframe, hpass | hsend⟩
  · rw [heq]
    exact ⟨hinterval.trans h.interval, ⟨h.position.1, nofun⟩, h.frames, h.content, h.count,
      fun hconnected => h.sent.1 (hstill hconnected), h.sent.2⟩
  · -- the frames so far are a pass of their own
    rw [heq]
    obtain ⟨passes, hle, -, hframes⟩ := h.frames
    refine ⟨h.interval, ⟨Nat.zero_le _, fun _ => rfl⟩, ⟨passes ++ [s.frameIdx], ?_, ?_, ?_⟩,
      h.content, h.count, fun _ => h.sent.1 hconnected, h.sent.2⟩
    · intro n hn
      rcases List.mem_append.mp hn with hn | hn
      · exact hle n hn
      · rw [List.mem_singleton.mp hn]
        exact h.position.1
    · intro hno
      rw [hloop] at hno
      cases hno
    · change s.messages.map (·.frameIdx) = _
      rw [hframes]
      simp [due]
  · obtain ⟨hmod, heq⟩ := hpass
    have hposition := h.position.2 hrunning
    rw [heq]
    exact h.pass hconnected (hposition ▸ (List.getElem?_eq_some_iff.mp hframe).1) hposition hmod
  · obtain ⟨hmod, dets, hdets, heq⟩ := hsend
    rw [heq]
    exact h.send hconnected (h.position.2 hrunning) hmod hframe hdets

omit [IsStrictOrderedRing K] in
theorem run_sampled (v : Video K) (clock : K) (es : List (Turn K)) :
    Sampled v (es.foldl (turn v) (start v clock)) :=
  (Run.of_foldl (turn v) (start v clock) es).invariant (start_sampled v clock)
    fun _ e _ hs hstep => hstep ▸ turn_sampled hs e

/-- The message of a turn has the time that the file gave then, or else the time of its number. -/
def Stamped (v : Video K) (m : SentDetection K) (e : Turn K) : Prop :=
  m.timestampMs = timestampMs v m.frameIdx e.posMsec ∧ m.sent = (e.connected && e.sends)

omit [IsStrictOrderedRing K] in
theorem run_stamped (v : Video K) (clock : K) (es : List (Turn K)) :
    List.SublistForall₂ (Stamped v) (es.foldl (turn v) (start v clock)).messages es := by
  refine (Run.of_foldl (turn v) (start v clock) es).outputs rfl ?_
  rintro s e t rfl
  rcases turn_cases v s e with ⟨_, _, _, -, -, heq⟩ | ⟨-, -, heq⟩ |
    ⟨output, -, -, -, ⟨-, heq⟩ | ⟨-, dets, -, heq⟩⟩
  · exact .inl (by rw [heq])
  · exact .inl (by rw [heq])
  · exact .inl (by rw [heq]; rfl)
  · exact .inr ⟨_, ⟨rfl, rfl⟩, by rw [heq]; rfl⟩

def frameTime (v : Video K) (s : VideoSession K) : K :=
  s.sessionStart + s.frameIdx * (1 / v.fpsUsed)

omit [FloorRing K] in
theorem frameTime_le_pace (hrealtime : v.realtime = true) (hlate : 0 ≤ e.late) :
    (s.pace v e).frameTime v ≤ (s.pace v e).clock := by
  simp only [frameTime, pace, hrealtime, true_and]
  split_ifs with hsleep <;> push_cast at hsleep ⊢ <;> linarith

omit [FloorRing K] in
/-- A turn that takes no longer than a frame keeps up. -/
theorem pace_le_frameTime (hrealtime : v.realtime = true) {late : K} (hlate : e.late ≤ late)
    (hwork : e.work ≤ 1 / v.fpsUsed) (h : s.clock ≤ s.frameTime v + late) :
    (s.pace v e).clock ≤ (s.pace v e).frameTime v + late := by
  rw [frameTime] at h
  simp only [frameTime, pace, hrealtime, true_and]
  split_ifs with hsleep <;> push_cast at hsleep ⊢ <;> linarith

theorem turn_early (hrealtime : v.realtime = true) (hlate : 0 ≤ e.late)
    (h : s.frameTime v ≤ s.clock) : (s.turn v e).frameTime v ≤ (s.turn v e).clock := by
  rcases turn_cases v s e with ⟨_, _, _, -, -, heq⟩ | ⟨-, -, heq⟩ |
    ⟨output, -, -, -, ⟨-, heq⟩ | ⟨-, dets, -, heq⟩⟩
  · rw [heq]
    exact h
  · rw [heq]
    simp [frameTime]
  · rw [heq]
    exact frameTime_le_pace hrealtime hlate
  · rw [heq]
    exact frameTime_le_pace hrealtime hlate

theorem turn_behind (hrealtime : v.realtime = true) {late : K} (hlate : 0 ≤ e.late ∧ e.late ≤ late)
    (hwork : e.work ≤ 1 / v.fpsUsed) (h : s.clock ≤ s.frameTime v + late) :
    (s.turn v e).clock ≤ (s.turn v e).frameTime v + late := by
  rcases turn_cases v s e with ⟨_, _, _, -, -, heq⟩ | ⟨-, -, heq⟩ |
    ⟨output, -, -, -, ⟨-, heq⟩ | ⟨-, dets, -, heq⟩⟩
  · rw [heq]
    exact h
  · rw [heq]
    simpa [frameTime] using hlate.1.trans hlate.2
  · rw [heq]
    exact pace_le_frameTime (s := s.read e) hrealtime hlate.2 hwork h
  · rw [heq]
    exact pace_le_frameTime (s := (s.read e).send v e dets) hrealtime hlate.2 hwork h

/-! ## A session that nothing disturbs -/

/-- No STOP, the connection is there, and the file can be read. -/
def Undisturbed (e : Turn K) : Prop :=
  e.stop = false ∧ e.connected = true ∧ e.reads = true ∧ e.sends = true

omit [IsStrictOrderedRing K] in
theorem undisturbed_frames
    (hdetects : ∀ output ∈ v.frames, (detect v.detector v.width v.height output).isSome)
    {es : List (Turn K)} (hes : ∀ e ∈ es, Undisturbed e) (hrunning : s.running = true)
    (hconnected : s.connected = true) (hlen : s.position + es.length ≤ v.frames.length) :
    (es.foldl (turn v) s).running = true ∧ (es.foldl (turn v) s).connected = true ∧
      (es.foldl (turn v) s).position = s.position + es.length := by
  induction es generalizing s with
  | nil => exact ⟨hrunning, hconnected, rfl⟩
  | cons e es ih =>
    obtain ⟨hstop, hstill, hreads, hsends⟩ := hes e List.mem_cons_self
    rw [List.length_cons] at hlen
    have hlt : s.position < v.frames.length := by omega
    have hnext : (s.turn v e).running = true ∧ (s.turn v e).connected = true ∧
        (s.turn v e).position = s.position + 1 := by
      obtain ⟨dets, hdets⟩ := Option.isSome_iff_exists.mp
        (hdetects _ (List.getElem_mem hlt))
      simp only [turn, hrunning, hconnected, hstop, hreads, List.getElem?_eq_getElem hlt, hdets,
        Bool.true_eq_false, Bool.false_eq_true, if_false, if_true]
      split_ifs
      · exact ⟨rfl, by simp [pace, send, hstill, hsends], rfl⟩
      · exact ⟨rfl, hstill, rfl⟩
    obtain ⟨hrun, hconn, hposition⟩ := hnext
    have hrest := ih (fun e' he' => hes e' (List.mem_cons_of_mem e he')) hrun hconn
      (by rw [hposition]; omega)
    rw [List.foldl_cons, List.length_cons]
    refine ⟨hrest.1, hrest.2.1, ?_⟩
    rw [hrest.2.2, hposition]
    omega

omit [IsStrictOrderedRing K] in
theorem foldl_ended (hended : s.running = false) (es : List (Turn K)) :
    es.foldl (turn v) s = s := by
  induction es with
  | nil => rfl
  | cons e es ih => rw [List.foldl_cons, turn, if_pos hended, ih]

omit [IsStrictOrderedRing K] in
theorem undisturbed_end
    (hdetects : ∀ output ∈ v.frames, (detect v.detector v.width v.height output).isSome)
    (clock : K) (hloop : v.loop = false) {es : List (Turn K)} (hlen : v.frames.length < es.length)
    (hes : ∀ e ∈ es, Undisturbed e) :
    (es.foldl (turn v) (start v clock)).running = false ∧
      (es.foldl (turn v) (start v clock)).frameIdx = v.frames.length ∧
      (es.foldl (turn v) (start v clock)).connected = true := by
  obtain ⟨e, rest, hrest⟩ := List.exists_cons_of_length_pos
    (show 0 < (es.drop v.frames.length).length by rw [List.length_drop]; omega)
  have hsplit : es = es.take v.frames.length ++ e :: rest := by
    rw [← hrest, List.take_append_drop]
  have htake : (es.take v.frames.length).length = v.frames.length := by
    rw [List.length_take]
    omega
  obtain ⟨hrunning, hconnected, hposition⟩ := undisturbed_frames (s := start v clock) hdetects
    (fun e he => hes e (List.mem_of_mem_take he)) rfl rfl
    (show 0 + (es.take v.frames.length).length ≤ v.frames.length by omega)
  have hsampled := run_sampled v clock (es.take v.frames.length)
  obtain ⟨u, hu⟩ : ∃ u, u = (es.take v.frames.length).foldl (turn v) (start v clock) := ⟨_, rfl⟩
  rw [← hu] at hrunning hconnected hposition hsampled
  have hend : u.position = v.frames.length := by
    rw [hposition, htake]
    exact Nat.zero_add _
  obtain ⟨hstop, hstill, hreads, -⟩ := hes e (by rw [hsplit]; simp)
  have hlast : u.turn v e = { u with connected := true, running := false } := by
    simp only [turn, hrunning, hconnected, hstop, hend, hloop, hstill, hreads,
      List.getElem?_length, Bool.true_eq_false, Bool.false_eq_true, if_false, if_true]
  rw [hsplit, List.foldl_append, ← hu, List.foldl_cons, hlast, foldl_ended rfl]
  exact ⟨rfl, (hsampled.position.2 hrunning).symm.trans hend, rfl⟩

end VideoSession

open VideoSession

/-- A video of three frames, of which the model sees every second one. -/
def threeFrames : Video ℚ where
  detector := mobileNet
  width := 1280
  height := 720
  frames := [corner, corner, corner]
  capFps := 25
  fps := 30
  loop := false
  frameInterval := 2
  realtime := true

/-- Turns that take half of their time, and sleep a little too long. -/
def fourTurns : List (Turn ℚ) := List.replicate 4 ⟨false, true, true, 0, true, 1 / 50, 1 / 1000⟩

theorem threeFrames_detects : ∀ output ∈ threeFrames.frames,
    (detect threeFrames.detector threeFrames.width threeFrames.height output).isSome := by
  have hcorner : (detect mobileNet 1280 720 corner).isSome = true := by decide +kernel
  intro output hmem
  obtain rfl : output = corner := by simpa [threeFrames] using hmem
  exact hcorner

/-- A read that fails behind the first frame begins a new pass. -/
example : ((fourTurns.set 1 ⟨false, true, false, 0, true, 1 / 50, 0⟩).foldl
    (turn { threeFrames with loop := true }) (start threeFrames 0)).messages.map
      (fun m => (m.frameIdx, m.timestampMs)) = [(0, 0), (0, 0)] := by decide +kernel

/-- In real time no frame is read before its time, and if no turn takes longer than a frame, the
session never falls further behind than a single sleep is late. -/
theorem video_paced {v : Video K} (hrealtime : v.realtime = true) (clock : K) {es : List (Turn K)}
    (hlate : ∀ e ∈ es, 0 ≤ e.late) :
    (es.foldl (turn v) (start v clock)).frameTime v ≤ (es.foldl (turn v) (start v clock)).clock ∧
      ∀ late, 0 ≤ late → (∀ e ∈ es, e.late ≤ late ∧ e.work ≤ 1 / v.fpsUsed) →
        (es.foldl (turn v) (start v clock)).clock ≤
          (es.foldl (turn v) (start v clock)).frameTime v + late := by
  have hstart : (start v clock).clock = (start v clock).frameTime v := by
    simp [start, frameTime]
  constructor
  · exact List.foldlRecOn (motive := fun s => s.frameTime v ≤ s.clock) es (turn v) hstart.ge
      fun s hs e he => turn_early hrealtime (hlate e he) hs
  · intro late hpos hes
    refine List.foldlRecOn (motive := fun s => s.clock ≤ s.frameTime v + late) es (turn v)
      (hstart.le.trans (le_add_of_nonneg_right hpos)) fun s hs e he => ?_
    exact turn_behind hrealtime ⟨hlate e he, (hes e he).1⟩ (hes e he).2 hs

theorem video_paced_three :
    (fourTurns.foldl (turn threeFrames) (start threeFrames 0)).frameTime threeFrames ≤
        (fourTurns.foldl (turn threeFrames) (start threeFrames 0)).clock ∧
      (fourTurns.foldl (turn threeFrames) (start threeFrames 0)).clock ≤
        (fourTurns.foldl (turn threeFrames) (start threeFrames 0)).frameTime threeFrames +
          1 / 1000 := by
  have hturn : ∀ e ∈ fourTurns, e = ⟨false, true, true, 0, true, 1 / 50, 1 / 1000⟩ :=
    fun e he => (List.mem_replicate.mp he).2
  have hlate : ∀ e ∈ fourTurns, 0 ≤ e.late := by
    intro e he
    rw [hturn e he]
    norm_num
  obtain ⟨hearly, hbehind⟩ := video_paced (v := threeFrames) rfl 0 hlate
  refine ⟨hearly, hbehind (1 / 1000) (by norm_num) fun e he => ?_⟩
  rw [hturn e he]
  exact ⟨le_rfl, by norm_num [Video.fpsUsed, threeFrames]⟩

/-! ## The camera -/

/-- Rounding towards zero, as `int` does it. -/
def truncate (q : K) : ℤ := if 0 ≤ q then ⌊q⌋ else ⌈q⌉

/-- What one turn finds: STOP, whether the connection is still there, what the model finds in the
frame, the seconds since the start, and whether a message can be sent. -/
structure CameraTurn (K : Type*) where
  stop : Bool
  connected : Bool
  output : ModelOutput K
  elapsed : K
  sends : Bool

structure CameraSession (K : Type*) where
  running : Bool
  connected : Bool
  frameIdx : ℕ
  frameInterval : ℤ
  sentMsgs : ℕ
  messages : List (SentDetection K)

namespace CameraSession

def start (frameInterval : ℤ) : CameraSession K := ⟨true, true, 0, frameInterval, 0, []⟩

def turn (d : EdgeTPUPersonDetector K) (s : CameraSession K) (e : CameraTurn K) :
    CameraSession K :=
  if s.running = false then s
  else if s.connected = false then { s with running := false }
  else
    let s := { s with connected := e.connected }
    if e.stop then { s with running := false }
    else
      let s := { s with frameInterval := effective s.frameInterval }
      if (s.frameIdx : ℤ) % s.frameInterval = 0 then
        match detect d 1280 720 e.output with
        | none => { s with running := false }
        | some dets =>
          { s with
            connected := s.connected && e.sends
            frameIdx := s.frameIdx + 1
            sentMsgs := s.sentMsgs + 1
            messages := s.messages ++ [⟨s.frameIdx, truncate (e.elapsed * 1000),
              detectionsPayload dets, s.connected && e.sends⟩] }
      else { s with frameIdx := s.frameIdx + 1 }

/-- A message of a turn. -/
def Sends (d : EdgeTPUPersonDetector K) (e : CameraTurn K) (m : SentDetection K) : Prop :=
  ∃ dets, detect d 1280 720 e.output = some dets ∧ m.detections = detectionsPayload dets ∧
    m.timestampMs = truncate (e.elapsed * 1000)

variable {d : EdgeTPUPersonDetector K} {s : CameraSession K} {e : CameraTurn K}

omit [IsStrictOrderedRing K] in
/-- A turn adds nothing, or the message of the frame. -/
theorem turn_messages (d : EdgeTPUPersonDetector K) (s : CameraSession K) (e : CameraTurn K) :
    (s.turn d e).messages = s.messages ∨
      ∃ m, Sends d e m ∧ (s.turn d e).messages = s.messages ++ [m] := by
  unfold turn
  by_cases hrunning : s.running = false
  · exact .inl (by rw [if_pos hrunning])
  rw [if_neg hrunning]
  by_cases hconnected : s.connected = false
  · exact .inl (by rw [if_pos hconnected])
  rw [if_neg hconnected]
  cases e.stop with
  | true => exact .inl rfl
  | false =>
    simp only [Bool.false_eq_true, if_false]
    split_ifs
    · cases hdets : detect d 1280 720 e.output with
      | none => exact .inl rfl
      | some dets => exact .inr ⟨_, ⟨dets, hdets, rfl, rfl⟩, rfl⟩
    · exact .inl rfl

omit [IsStrictOrderedRing K] in
/-- The messages of a session are those of some of its turns, in the same order. -/
theorem run_messages (d : EdgeTPUPersonDetector K) (frameInterval : ℤ) (es : List (CameraTurn K)) :
    List.SublistForall₂ (fun m e => Sends d e m)
      (es.foldl (turn d) (CameraSession.start frameInterval)).messages es := by
  refine (Run.of_foldl (turn d) (CameraSession.start frameInterval) es).outputs rfl ?_
  rintro s e t rfl
  exact turn_messages d s e

end CameraSession

/-- The model's scores are proportions, and there are not too many of them for one line. -/
def ModelOutput.Modest (output : ModelOutput ℚ) : Prop :=
  ∀ scores ∈ output.scores, scores.length ≤ 39 ∧ ∀ q ∈ scores, 0 ≤ q ∧ q ≤ 1

theorem detect_modest {d : EdgeTPUPersonDetector ℚ} {origW origH : ℕ} {output : ModelOutput ℚ}
    (h : output.Modest) {dets : List (Detection ℚ)}
    (hdets : detect d origW origH output = some dets) :
    dets.length ≤ 39 ∧ ∀ det ∈ dets, 0 ≤ det.score ∧ det.score ≤ 1 := by
  unfold detect at hdets
  split_ifs at hdets
  · cases hdets
    exact ⟨Nat.zero_le _, nofun⟩
  · cases hboxes : output.boxes with
    | none => simp [hboxes] at hdets
    | some boxes =>
      cases hscores : output.scores with
      | none => simp [hboxes, hscores] at hdets
      | some scores =>
        obtain ⟨hlen, hrange⟩ := h scores hscores
        simp only [hboxes, hscores, Option.some.injEq] at hdets
        rw [← hdets]
        constructor
        · rw [List.length_insertionSort]
          refine (List.length_filterMap_le _ _).trans ?_
          rw [List.length_take, List.length_zip]
          omega
        · intro det hdet
          rw [List.mem_insertionSort, List.mem_filterMap] at hdet
          obtain ⟨row, hrow, hdet⟩ := hdet
          split_ifs at hdet
          cases hdet
          exact hrange row.1 (List.of_mem_zip (List.mem_of_mem_take hrow)).1

/-- What a camera session sends for a turn fits the buffers on the way to the phone. -/
theorem CameraSession.Sends.fits {d : EdgeTPUPersonDetector ℚ} {e : CameraTurn ℚ}
    {m : SentDetection ℚ} (h : CameraSession.Sends d e m) (hmodest : e.output.Modest)
    (helapsed : 0 ≤ e.elapsed ∧ e.elapsed < 10 ^ 10) : Fits m.timestampMs m.detections := by
  obtain ⟨dets, hdets, hdetections, htimestamp⟩ := h
  obtain ⟨hpos, hlt⟩ := helapsed
  obtain ⟨hcount, hscore⟩ := detect_modest hmodest hdets
  rw [hdetections, htimestamp, truncate, if_pos (by positivity)]
  refine fits_detectionsPayload hdets hscore hcount ⟨Int.floor_nonneg.mpr (by positivity), ?_⟩
  rw [Int.floor_lt]
  push_cast
  linarith

end SnipeIt.Detector
