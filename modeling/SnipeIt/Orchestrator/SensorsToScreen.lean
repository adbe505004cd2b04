import SnipeIt.Bridge.Broadcast
import SnipeIt.Orchestrator.MainLoop
import SnipeIt.Phone.SensorStrip

/-! # From the sensors to the screen

What the strip of the dashboard shows goes back over the WebSocket, the main loop,
the snapshot and the copies of the broadcaster to values that were measured.
-/

namespace SnipeIt.Orchestrator
open Support
open Bridge (DdlField copyFrame blank frameOf Stored Measured FromTemperatureHumidity FromGps
  TickingBridge ReadyConfig buildJson readyMsg received receivedTemperatureHumidity
  receivedDistance receivedGps)
open Config (StreamingConfig)
open Phone (SensorStrip KotlinFloat Received sensorStrip asFloat thousandths onMessage)
open Phone.SensorData (validTempHumidity validDistance validGps temperatureC humidityPct distanceM
  gpsLatLon gpsSatellites)
open MainLoop

/-- What the bridge has seen in a reading of all fields, while the sensors and the broadcaster go
on. -/
def ReadOff (v : ∀ i : DdlField, i.Value) : Prop :=
  ∃ readOrder acts, ∃ r : Relay DdlField.Value, (∀ i, i ∈ readOrder) ∧
    Run (Relay.Step copyFrame readOrder) (Relay.start blank) acts r ∧
    (∀ a ∈ acts, Relay.Stores Stored a) ∧ r.toRead = [] ∧ v = r.seen

/-- The strip for a frame: temperature, humidity and position as they are, the distance as it is
printed. -/
def stripOf (f : Ddl.DDLFrame) : SensorStrip where
  temperature := if f.tempHumFrame.valid then some (KotlinFloat.toInt f.tempHumFrame.temperature)
    else none
  humidity := if f.tempHumFrame.valid then some (KotlinFloat.toInt f.tempHumFrame.humidity)
    else none
  gps := if f.gpsFrame.valid then some ⟨thousandths f.gpsFrame.latitude,
    thousandths f.gpsFrame.longitude, some f.gpsFrame.numSatellites.toNat⟩ else none
  distance := if f.distFrame.valid then
    some (KotlinFloat.toInt (Decimal.round 2 f.distFrame.distance)) else none

/-! ## Printing loses nothing that the strip shows -/

theorem round_zero (places : ℕ) : Decimal.round places 0 = 0 :=
  Decimal.round_of_places 0 (by simp)

theorem round_tenths (n : ℕ) : Decimal.round 2 (n / 10 : ℚ) = n / 10 :=
  Decimal.round_of_places (10 * n) (by push_cast; ring)

theorem round_neg_tenths (n : ℕ) : Decimal.round 2 (-(n / 10) : ℚ) = -(n / 10) :=
  Decimal.round_of_places (-(10 * n)) (by push_cast; ring)

theorem round_temperatureHumidity {th : Ddl.TemperatureHumidityFrame}
    (h : FromTemperatureHumidity th) :
    Decimal.round 2 th.temperature = th.temperature ∧
      Decimal.round 2 th.humidity = th.humidity := by
  obtain ⟨valid, frame, -, rfl⟩ := h
  constructor
  · change Decimal.round 2 (Ddl.Am2302.temperatureOf frame) = Ddl.Am2302.temperatureOf frame
    rw [Ddl.Am2302.temperatureOf]
    split_ifs
    · exact round_neg_tenths _
    · exact round_tenths _
  · change Decimal.round 2 (Ddl.Am2302.humidityOf frame) = Ddl.Am2302.humidityOf frame
    rw [Ddl.Am2302.humidityOf]
    exact round_tenths _

theorem round_position {g : Ddl.GPSFrame} (h : FromGps g) :
    Decimal.round 7 g.latitude = g.latitude ∧ Decimal.round 7 g.longitude = g.longitude := by
  obtain ⟨order, aobj, frame, -, rfl⟩ := h
  have hround (x : Int32) :
      Decimal.round 7 (Ddl.exactFloats.tenMillionths x) = Ddl.exactFloats.tenMillionths x := by
    refine Decimal.round_of_places x.toInt ?_
    rw [Ddl.exactFloats_tenMillionths]
    ring
  rw [Ddl.UbxNavPvt.updateGpsFrame_eq]
  exact ⟨hround _, hround _⟩

/-- A field that was not stored is zero, which is printed as it is, too. -/
theorem round_stored {α : Type} {P : α → Prop} {read : α → ℚ} {places : ℕ} {q : ℚ}
    (hP : ∀ a, P a → Decimal.round places (read a) = read a)
    (hq : q = 0 ∨ ∃ a, P a ∧ q = read a) : Decimal.round places q = q := by
  rcases hq with rfl | ⟨a, ha, rfl⟩
  · exact round_zero places
  · exact hP a ha

theorem map_takeIf {α β : Type} (valid : Bool) (read : α → β) (a : α) :
    (if valid then some a else none).map read = if valid then some (read a) else none := by
  split_ifs <;> rfl

/-- What is printed as hundredths is shown as it is. -/
theorem toInt_printed {q : ℚ} {m : ℤ} (h : |q| ≤ m) (hm : m ≤ 2 ^ 14 + 2 ^ 13) :
    KotlinFloat.toInt (asFloat (Decimal.round 2 q)) = KotlinFloat.toInt (Decimal.round 2 q) := by
  obtain ⟨hlow, hhigh⟩ := abs_le.mp h
  obtain ⟨hlow', hhigh'⟩ := Decimal.round_mem 2 (m := -m) (by push_cast; exact hlow) hhigh
  push_cast at hlow'
  have hm' : (m : ℚ) ≤ 2 ^ 14 + 2 ^ 13 := by exact_mod_cast hm
  refine Phone.toInt_asFloat (n := halfEven (q * 10 ^ 2)) ?_
    ((abs_le.mpr ⟨hlow', hhigh'⟩).trans hm')
  rw [Decimal.round]
  push_cast
  ring

/-- The strip of a phone that has read the frame of measured values. -/
theorem sensorStrip_received {v : ∀ i : DdlField, i.Value} (hv : ∀ i, Measured i (v i))
    (now : UInt64) : sensorStrip (some (received (frameOf v) now)) = stripOf (frameOf v) := by
  have htemperature : Decimal.round 2 (frameOf v).tempHumFrame.temperature =
      (frameOf v).tempHumFrame.temperature :=
    round_stored (fun _ h => (round_temperatureHumidity h).1) (hv .temperature)
  have hhumidity : Decimal.round 2 (frameOf v).tempHumFrame.humidity =
      (frameOf v).tempHumFrame.humidity :=
    round_stored (fun _ h => (round_temperatureHumidity h).2) (hv .humidity)
  have hlatitude : Decimal.round 7 (frameOf v).gpsFrame.latitude = (frameOf v).gpsFrame.latitude :=
    round_stored (fun _ h => (round_position h).1) (hv .latitude)
  have hlongitude : Decimal.round 7 (frameOf v).gpsFrame.longitude =
      (frameOf v).gpsFrame.longitude :=
    round_stored (fun _ h => (round_position h).2) (hv .longitude)
  have hrange := Bridge.frameOf_inRange hv
  generalize frameOf v = f at *
  have hwarm := toInt_printed (m := 3277) (hrange.tempHumFrame.temperature.trans (by norm_num))
    (by decide)
  have hhumid := toInt_printed (q := f.tempHumFrame.humidity) (m := 6554)
    (by rw [abs_of_nonneg hrange.tempHumFrame.humidity.1]
        exact hrange.tempHumFrame.humidity.2.trans (by norm_num)) (by decide)
  have hfar := toInt_printed (q := f.distFrame.distance) (m := 16778)
    (by rw [abs_of_nonneg hrange.distFrame.1]
        exact hrange.distFrame.2.trans (by norm_num)) (by decide)
  rw [htemperature] at hwarm
  rw [hhumidity] at hhumid
  have htempHumidity : validTempHumidity (some (received f now)) =
      if f.tempHumFrame.valid then some (receivedTemperatureHumidity f.tempHumFrame) else none :=
    Option.filter_some
  have hdistance : validDistance (some (received f now)) =
      if f.distFrame.valid then some (receivedDistance f.distFrame) else none := Option.filter_some
  have hgps : validGps (some (received f now)) =
      if f.gpsFrame.valid then some (receivedGps f.gpsFrame) else none := Option.filter_some
  rw [stripOf, sensorStrip, temperatureC, humidityPct, distanceM, gpsLatLon, gpsSatellites,
    htempHumidity, hdistance, hgps]
  simp only [map_takeIf, receivedTemperatureHumidity, receivedDistance, receivedGps, htemperature,
    hhumidity, hlatitude, hlongitude, hwarm, hhumid, hfar]
  split_ifs <;> rfl

variable {config : StreamingConfig} {name : List Char} {lwsPre : ℕ} {conn : Ipc.IPCConnection}
  {fd : ℕ} {bridge : TickingBridge} {sent : List Batch} {ops : List LoopOp} {s : MainLoop}

theorem ReadOff.measured {v : ∀ i : DdlField, i.Value} (h : ReadOff v) (i : DdlField) :
    Measured i (v i) := by
  obtain ⟨readOrder, acts, r, hall, hrun, hacts, hread, rfl⟩ := h
  exact (Bridge.seen_measured hall hrun hacts hread i).2

/-- The frames that the ticks find are what the bridge has read off the copies. -/
def TicksReadOff (op : LoopOp) : Prop :=
  ∀ mono now snap, op = .tick mono now snap → ∀ f ∈ snap, ∃ v, ReadOff v ∧ f = frameOf v

/-- The distance is stored with its flag, copied and read. -/
def distanceStored : List (RelayAct DdlField.Value) :=
  [.store .distance (2221 / 1000 : ℚ), .store .distValid true, .beginCopy] ++
    List.replicate 17 .copy ++ [.beginRead] ++ List.replicate 17 .read

theorem distance_readOff : ∃ v, ReadOff v ∧ stripOf (frameOf v) = ⟨none, none, none, some 2⟩ := by
  obtain ⟨r, hr⟩ : ∃ r, exec (Relay.apply copyFrame copyFrame) (Relay.start blank) distanceStored =
    some r := ⟨_, rfl⟩
  have hacts : ∀ a ∈ distanceStored, Relay.Stores Stored a := by
    simp only [distanceStored, List.mem_append, List.mem_cons, List.mem_replicate,
      List.not_mem_nil, or_false]
    rintro a ((((rfl | rfl | rfl) | ⟨-, rfl⟩) | rfl) | ⟨-, rfl⟩)
    · exact Bridge.stored_someReading
    all_goals trivial
  have hseen : (some r).map (fun r => (r.toRead, stripOf (frameOf r.seen))) =
      some ([], ⟨none, none, none, some 2⟩) := by
    rw [← hr]
    decide +kernel
  obtain ⟨hread, hstrip⟩ := Prod.mk.inj (Option.some.inj hseen)
  exact ⟨r.seen, ⟨copyFrame, _, r, Bridge.mem_copyFrame, Run.of_exec hr, hacts, hread, rfl⟩, hstrip⟩

/-- A phone connects, a snapshot is built and written to it. -/
theorem snapshot_run {f : Ddl.DDLFrame} (hf : f.InRange) (line : List UInt8) : ∃ ops s,
    Run (Step Config.configInitDefaults 16) (waiting true line 0) ops s ∧
      (∀ op ∈ ops, Frameless op ∨ op = .tick 1000 5 (some f)) ∧
      s.ws.written.map (·.message.data) = [readyMsg Config.configInitDefaults, buildJson f 5] := by
  have hready : (readyMsg Config.configInitDefaults).length < WebSocket.wsMaxMsgSize :=
    (List.length_take_le 255 _).trans_lt (by decide)
  have hjson : (buildJson f 5).length < WebSocket.wsMaxMsgSize :=
    (Bridge.length_buildJson hf 5).2.trans (by decide)
  obtain ⟨ops, hquiet, hgreeted⟩ := greeted_run true 16 line hready
  obtain ⟨g, hg⟩ : ∃ g, g = greeted true Config.configInitDefaults 16 line := ⟨_, rfl⟩
  have hconnected : g.ws.server.clientConnected = true := by rw [hg]; rfl
  have hcounter : g.wsServiceCounter = 0 := by rw [hg]; rfl
  have hpython : g.pythonConnected = true := by rw [hg]; rfl
  have hfd : g.ipc.conn.clientFd ≠ none := by rw [hg]; nofun
  have hempty : g.ipc.conn.content = [] := by rw [hg]; rfl
  have hread := idle_read (s := g) Config.configInitDefaults 16 (by rw [hg]; rfl)
    hpython hfd hempty (if_neg (by rw [hcounter]; decide))
  -- the tick takes down the clock, and the next eight are too early
  obtain ⟨t, ht⟩ : ∃ t : MainLoop, t = { g with
    wsServiceCounter := 1
    bridge := { resting true with lastEmitMs := 1000 }
    ws := (g.ws.queueMessage (buildJson f 5)).2
    point := .start } := ⟨_, rfl⟩
  have htick : Step Config.configInitDefaults 16
      { g with wsServiceCounter := g.wsServiceCounter + 1, point := .tick }
      (.tick 1000 5 (some f)) t := by
    refine ⟨⟨by decide, fun f' hf' => Option.mem_some.mp hf' ▸ hf⟩, ?_⟩
    have hdue := Bridge.ddlBridgeTick_due (b := resting true) (t := 1000) rfl (.inl rfl) hf 5
    have hbridge : g.bridge = resting true := by rw [hg]; rfl
    simp only [apply, tick, hconnected, hbridge, hdue, hcounter, ht]
  have hearly (connected : Bool) : Bridge.ddlBridgeTick t.bridge connected 1000 0 none =
      (t.bridge, none) := by
    have hbridge : t.bridge = { resting true with lastEmitMs := 1000 } := by rw [ht]
    rw [hbridge]
    cases connected <;> rfl
  have hpoint : t.point = .start := by rw [ht]
  have hone : t.wsServiceCounter = 1 := by rw [ht]
  have hkept : t.ipc = g.ipc ∧ t.pythonConnected = true := by rw [ht]; exact ⟨rfl, hpython⟩
  rw [← hkept.1] at hfd hempty
  have hidle := idle_run Config.configInitDefaults 16 hpoint hkept.2 hfd hempty
    (hearly _) (show t.wsServiceCounter + 8 ≤ 9 by rw [hone])
  have hread' := idle_read (s := { t with wsServiceCounter := t.wsServiceCounter + 8 })
    Config.configInitDefaults 16 hpoint hkept.2 hfd hempty
    (if_pos (by rw [hone]))
  obtain ⟨ops', u, hquiet', hflush, hwritten⟩ := flushed_run (s := { t with
    wsServiceCounter := t.wsServiceCounter + 8 + 1, point := .counterService }) true 16 line hready
    hjson (by rw [ht, hg]) (.inl rfl)
  rw [← hg] at hgreeted
  refine ⟨_, u, hgreeted.of_guarded.append ((hread.of_guarded.snoc htick).append
    (hidle.of_guarded.append (hread'.of_guarded.append hflush.of_guarded))), ?_, hwritten⟩
  simp only [List.forall_mem_append]
  exact ⟨fun op hop => .inl (hquiet op hop), ⟨by simp [Frameless], by simp⟩,
    fun op hop => .inl (idleTurns_frameless 1000 8 op hop), by simp [Frameless],
    fun op hop => .inl (hquiet' op hop)⟩

end SnipeIt.Orchestrator
