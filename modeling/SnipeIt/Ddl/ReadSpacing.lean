import SnipeIt.Ddl.TemperatureHumidity

/-! # The interval between two start signals

The read state looks once at the time since the last successful read. A failed
transaction is retried at once, so that only those read events keep the interval
that find their first transaction successful.
-/

namespace SnipeIt.Ddl.TemperatureHumidity
open App (minReadIntervalUs temperatureHumidityRetryMax)
open Support Util

/-- Each start signal comes at least `AM2302_MIN_READ_INTERVAL_MS` after the one before. -/
def Spaced (transactions : List Transaction) : Prop :=
  transactions.IsChain fun t t' => t.start + minReadIntervalUs ≤ t'.start

/-- A read event that is not too early finds a sensor that responds at once. -/
def FirstSucceeds (w : Am2302.Hardware) (f : Fsm State Data) (type : ℕ) : Prop :=
  f.currentState = .idle → type = eventRead → Due w f.data →
    w.Responds (f.data.driver.moment + 1)

/-- No failed transaction takes as long as the interval. -/
def Prompt (w : Am2302.Hardware) : Prop :=
  ∀ d status d', am2302Read w d = (.error status, d') → now w d' < now w d + minReadIntervalUs

variable {w : Am2302.Hardware} {d : Data} {f g : Fsm State Data} {fuel type : ℕ} {types : List ℕ}

theorem now_tick_le (d : Data) : now w d ≤ now w d.tick := w.mono (Nat.le_succ _)

theorem handleRead_first_ok (hdue : Due w d) (hresponds : w.Responds (d.driver.moment + 1)) :
    ∃ d', am2302Read w d.tick = (.ok (), d') ∧
      handleRead w d = { d'.tick with valid := true, lastReadTick := now w d', retry := 0 } := by
  have hfirst : (am2302Read w d.tick).1 = .ok () :=
    (Am2302.read_ok_iff w d.tick.driver).mpr hresponds
  rcases hcall : am2302Read w d.tick with ⟨status | ⟨⟩, d'⟩
  · rw [hcall] at hfirst
    cases hfirst
  · refine ⟨d', rfl, ?_⟩
    rw [handleRead, readEntry, if_pos hdue, readLoop_ok hcall]
    rfl

/-- A failed transaction, and the next one when it has returned. -/
theorem handleRead_first_error (hdue : Due w d) (hretry : d.retry = 0) {status : Status} {d' : Data}
    (hcall : am2302Read w d.tick = (.error status, d')) :
    ∃ next rest, next.start = now w d' ∧ (handleRead w d).transactions =
      d.transactions ++ ⟨now w d.tick, .error status⟩ :: next :: rest := by
  have hreads := am2302Read_reads hcall
  have hretry' : d'.retry = 0 := hreads.retry.trans hretry
  have hmore : d'.retry + 1 < temperatureHumidityRetryMax := by
    rw [hretry']
    decide
  obtain ⟨failed, last, hloops⟩ := readLoop_loops (w := w) { d' with retry := d'.retry + 1 } hmore
  have htransactions := hloops.transactions
  rw [← readLoop_error hcall hmore] at htransactions
  obtain ⟨next, rest, hnew⟩ : ∃ next rest, failed ++ [last] = next :: rest := by
    cases failed with
    | nil => exact ⟨last, [], rfl⟩
    | cons next failed => exact ⟨next, failed ++ [last], rfl⟩
  have hfirst := hloops.first
  rw [hnew] at hfirst htransactions
  refine ⟨next, rest, Option.some.inj hfirst, ?_⟩
  have hentry : (readEntry w d).transactions = (readLoop w d.tick).2.transactions := by
    rw [readEntry, if_pos hdue, settled_transactions]
  rw [handleRead, hentry, htransactions, hreads.transactions, List.append_assoc]
  rfl

/-- The last transaction has succeeded, and the interval begins after it. -/
structure Rested (w : Am2302.Hardware) (f : Fsm State Data) : Prop extends AtRest f where
  tick : f.currentState = .idle → f.data.lastReadTick ≤ now w f.data
  last : f.currentState = .idle → ∀ t ∈ f.data.transactions.getLast?, t.start ≤ f.data.lastReadTick

theorem Starts.rested (hnone : d.transactions = []) (h : Starts w d f) : Rested w f := by
  refine ⟨h.atRest hnone, ?_, ?_⟩
  · cases h with
    | fails hstate => simp [hstate]
    | idles _ _ _ _ _ _ htick => exact fun _ => htick
  · simp [h.transactions.trans hnone]

theorem Spaced.concat {transactions : List Transaction} {t : Transaction}
    (h : Spaced transactions)
    (hlast : ∀ t' ∈ transactions.getLast?, t'.start + minReadIntervalUs ≤ t.start) :
    Spaced (transactions ++ [t]) := by
  apply List.isChain_append.mpr
  refine ⟨h, List.isChain_singleton t, ?_⟩
  intro t' ht' t'' ht''
  cases ht''
  exact hlast t' ht'

/-- What leaves the record and the time of the last success as they are. -/
theorem Rested.of_same (hf : Rested w f) (hrest : AtRest g)
    (hstate : g.currentState = .idle → f.currentState = .idle)
    (htick : g.data.lastReadTick = f.data.lastReadTick)
    (htransactions : g.data.transactions = f.data.transactions)
    (hnow : now w f.data ≤ now w g.data) :
    Rested w g ∧ (Spaced f.data.transactions → Spaced g.data.transactions) := by
  refine ⟨⟨hrest, fun hidle => ?_, fun hidle => ?_⟩, ?_⟩
  · rw [htick]
    exact (hf.tick (hstate hidle)).trans hnow
  · rw [htick, htransactions]
    exact hf.last (hstate hidle)
  · rw [htransactions]
    exact id

/-- A read event whose first transaction succeeds makes one start signal, which is late enough. -/
theorem Rested.read_succeeds (hf : Rested w f) (hrest : AtRest g) (hidle : f.currentState = .idle)
    (hdue : Due w f.data) (hresponds : w.Responds (f.data.driver.moment + 1))
    (hdata : g.data = handleRead w f.data) :
    Rested w g ∧ (Spaced f.data.transactions → Spaced g.data.transactions) := by
  obtain ⟨d', hcall, heq⟩ := handleRead_first_ok hdue hresponds
  have hreads := am2302Read_reads hcall
  have hstart : now w f.data ≤ now w f.data.tick := now_tick_le f.data
  have hend := hreads.later
  have hlast := hf.last hidle
  have hdue : minReadIntervalUs < now w f.data - f.data.lastReadTick := hdue
  have htransactions : g.data.transactions =
      f.data.transactions ++ [⟨now w f.data.tick, .ok ()⟩] := by
    rw [hdata, heq]
    exact hreads.transactions
  have hg : g.data.lastReadTick = now w d' := by rw [hdata, heq]
  refine ⟨⟨hrest, fun _ => ?_, fun _ => ?_⟩, fun hspaced => ?_⟩
  · rw [hg, hdata, heq]
    exact now_tick_le d'
  · rw [htransactions, hg]
    simpa using hend
  · rw [htransactions]
    apply hspaced.concat
    intro t ht
    have hbefore := hlast t ht
    dsimp only
    omega

theorem Rested.step (hf : Rested w f) (h : Step w f type g) (hgood : FirstSucceeds w f type) :
    Rested w g ∧ (Spaced f.data.transactions → Spaced g.data.transactions) := by
  have hrest := hf.toAtRest.step h
  cases step_does hf.state h with
  | reads hidle htype hstate hdata =>
    by_cases hdue : Due w f.data
    · exact hf.read_succeeds hrest hidle hdue (hgood hidle htype hdue) hdata
    · have heq : g.data = { f.data.tick with retry := 0 } := by
        rw [hdata, handleRead, readEntry, if_neg hdue]
      apply hf.of_same hrest (fun _ => hidle) <;> rw [heq]
      · rfl
      · rfl
      · exact now_tick_le f.data
  | enters hidle hstate hdata =>
    apply hf.of_same hrest (fun _ => hidle) <;> rw [hdata]
    exact le_rfl
  | fails herror hstate hdata =>
    apply hf.of_same hrest (fun hidle => by simp [hstate] at hidle) <;> rw [hdata]
    exact le_rfl
  | ignores hstate hdata =>
    apply hf.of_same hrest (fun hidle => hstate ▸ hidle) <;> rw [hdata]

theorem Rested.step_not_spaced (hprompt : Prompt w) (hf : Rested w f) (h : Step w f type g)
    (hbad : ¬ FirstSucceeds w f type) : ¬ Spaced g.data.transactions := by
  rw [FirstSucceeds, Classical.not_imp, Classical.not_imp, Classical.not_imp] at hbad
  obtain ⟨hidle, rfl, hdue, hfirst⟩ := hbad
  rcases hcall : am2302Read w f.data.tick with ⟨status | ⟨⟩, d'⟩
  · obtain ⟨next, rest, hstart, htransactions⟩ :=
      handleRead_first_error hdue (hf.retry hidle) hcall
    have hshort := hprompt _ _ _ hcall
    intro hspaced
    rw [step_read hidle h, htransactions] at hspaced
    have htwo := (List.isChain_cons_cons.mp hspaced.right_of_append).1
    dsimp only at htwo
    omega
  · exact absurd ((Am2302.read_ok_iff w f.data.tick.driver).mp (congrArg Prod.fst hcall)) hfirst

theorem AtRest.spaced_of_step (hf : AtRest f) (h : Step w f type g)
    (hspaced : Spaced g.data.transactions) : Spaced f.data.transactions := by
  cases step_does hf.state h with
  | reads hidle htype hstate hdata =>
    rw [hdata] at hspaced
    rcases handleRead_spec (w := w) f.data (hf.retry hidle) with
      ⟨htransactions, -, -⟩ | ⟨failed, last, -, htransactions, -, -⟩
    · rw [← htransactions]
      exact hspaced
    · rw [htransactions] at hspaced
      exact hspaced.left_of_append
  | enters hidle hstate hdata =>
    rw [hdata] at hspaced
    exact hspaced
  | fails herror hstate hdata =>
    rw [hdata] at hspaced
    exact hspaced
  | ignores hstate hdata =>
    rw [hdata] at hspaced
    exact hspaced

/-- The start signals keep their distance in every run whose read events find their first
transaction successful, and, if no failed transaction takes as long as the interval, in no other
run. -/
theorem start_signals_spaced (w : Am2302.Hardware) (d : Data) (hnone : d.transactions = [])
    (fuel : ℕ) (f : Fsm State Data) (hinit : Fsm.init (handlers w) fuel .init d = some f) :
    (∀ types g, Run (Guarded (FirstSucceeds w) (Step w)) f types g → Spaced g.data.transactions) ∧
      (Prompt w → ∀ types g, Run (Step w) f types g →
        (Spaced g.data.transactions ↔ Run (Guarded (FirstSucceeds w) (Step w)) f types g)) := by
  have hrested := (init_starts hinit).rested hnone
  have hempty : f.data.transactions = [] := (init_starts hinit).transactions.trans hnone
  have hspaced : Spaced f.data.transactions := by
    rw [hempty]
    exact .nil
  constructor
  · intro types g hrun
    have hinv := hrun.invariant (P := fun g => Rested w g ∧ Spaced g.data.transactions)
      ⟨hrested, hspaced⟩ fun f type g hf h =>
        ⟨(hf.1.step h.2 h.1).1, (hf.1.step h.2 h.1).2 hf.2⟩
    exact hinv.2
  · intro hprompt types g hrun
    refine hrun.last_iff_guarded (P := fun g => Spaced g.data.transactions) (I := Rested w)
      (J := AtRest) hspaced hrested hrested.toAtRest ?_ ?_ ?_ ?_
    · exact fun _ _ _ hf h => hf.step h
    · exact fun _ _ _ hf h => hf.spaced_of_step h
    · exact fun _ _ _ hf h hgood => hf.step h hgood
    · exact fun _ _ _ hf h hbad => hf.step_not_spaced hprompt h hbad

/-! ## A sensor that responds twice -/

theorem read_follows {bits : List Bool} {later : ℕ} (hidle : f.currentState = .idle)
    (hdue : Due w f.data) (h : w.Follows bits (f.data.driver.moment + 1) later)
    (hlength : bits.length = Am2302.bitCount)
    (hparity : Am2302.parityCheck (.ofBits bits) = true) :
    ∃ g, Guarded (FirstSucceeds w) (Step w) f eventRead g ∧ g.currentState = .idle ∧
      g.data.driver.moment = f.data.driver.moment + 254 ∧
      g.data.lastReadTick = w.clock (f.data.driver.moment + 253) ∧
      g.data.transactions.length = f.data.transactions.length + 1 := by
  obtain ⟨hok, hmoment⟩ := Am2302.Hardware.Follows.read (s := f.data.tick.driver) h hlength hparity
  have hresponds : w.Responds (f.data.driver.moment + 1) :=
    (Am2302.read_ok_iff w f.data.tick.driver).mp hok
  obtain ⟨d', hcall, heq⟩ := handleRead_first_ok hdue hresponds
  have hdriver : d'.driver.moment = f.data.driver.moment + 253 :=
    (congrArg (fun r => r.2.driver.moment) hcall).symm.trans hmoment
  obtain ⟨g, hsend, hstate, hg⟩ := sendEvent_read (w := w) hidle
  rw [heq] at hg
  refine ⟨g, ⟨fun _ _ _ => hresponds, 3, hsend⟩, hstate, ?_, ?_, ?_⟩
  · rw [hg]
    exact congrArg (· + 1) hdriver
  · rw [hg, ← hdriver]
    rfl
  · rw [hg]
    change d'.transactions.length = _
    rw [(am2302Read_reads hcall).transactions, List.length_append]
    rfl

def respondingBits : List Bool := (Am2302.encode 652 true 101).bits

/-- The sensor of `responding`, which sends its frame again five seconds later. -/
def repeating : Am2302.Hardware where
  clock n := if n < 256 then responding.clock n else 5000000 + responding.clock (n - 254)
  level n := responding.level (if n < 256 then n else n - 254)
  direction _ _ := .successful
  mono := by
    intro n m hle
    dsimp only
    split_ifs with hn hm
    · exact responding.mono hle
    · have hlast : responding.clock 255 ≤ 5000000 := by decide +kernel
      have hfirst := responding.mono (show n ≤ 255 by omega)
      omega
    · omega
    · exact Nat.add_le_add_left (responding.mono (Nat.sub_le_sub_right hle 254)) _
  unbounded t := by
    obtain ⟨n, hn⟩ := responding.unbounded t
    refine ⟨n + 256, ?_⟩
    have hmono := responding.mono (show n ≤ n + 256 - 254 by omega)
    rw [if_neg (by omega)]
    omega

theorem repeating_follows : repeating.Follows respondingBits 3 0 ∧
    repeating.Follows respondingBits 257 5000000 := by
  refine ⟨⟨fun _ _ => rfl, fun j hj => ?_, fun j hj => ?_⟩,
    ⟨fun _ _ => rfl, fun j hj => ?_, fun j hj => ?_⟩⟩ <;> dsimp only [repeating]
  · rw [if_pos (by omega)]
    rfl
  · rw [if_pos (by omega), Nat.zero_add]
    rfl
  · rw [if_neg (by omega), show 257 + j - 254 = 3 + j by omega]
    rfl
  · rw [if_neg (by omega), show 257 + j - 254 = 3 + j by omega]
    rfl

theorem repeating_started :
    ∃ f : Fsm State Data, Fsm.init (handlers repeating) 2 .init blank = some f ∧
      f.currentState = .idle ∧ f.data = { blank with driver.moment := 2 } :=
  ⟨_, rfl, rfl, rfl⟩

theorem start_signals_spaced_responding :
    ∃ f g : Fsm State Data,
      Fsm.init (handlers repeating) 2 .init blank = some f ∧
      Run (Step repeating) f [eventRead, eventRead] g ∧ g.data.transactions.length = 2 ∧
      Spaced g.data.transactions := by
  have hlength : respondingBits.length = Am2302.bitCount := Am2302.TempHumFrame.length_bits _
  have hparity : Am2302.parityCheck (.ofBits respondingBits) = true := by
    rw [respondingBits, Am2302.TempHumFrame.ofBits_bits]
    exact Am2302.parityCheck_encode 652 true 101
  obtain ⟨hfirst, hsecond⟩ := repeating_follows
  obtain ⟨f, hinit, hidle, hdata⟩ := repeating_started
  obtain ⟨g, hread, hstate, hmoment, htick, hcount⟩ := read_follows (w := repeating) hidle
    (by rw [hdata]; decide) (by rw [hdata]; exact hfirst) hlength hparity
  rw [hdata] at hmoment htick hcount
  have hdue : Due repeating g.data := by
    rw [Due, now, hmoment, htick]
    decide +kernel
  obtain ⟨h, hread', -, -, -, hcount'⟩ := read_follows hstate hdue (by rw [hmoment]; exact hsecond)
    hlength hparity
  have hrun := (Run.single hread).snoc hread'
  refine ⟨f, h, hinit, hrun.of_guarded, by rw [hcount', hcount]; rfl, ?_⟩
  exact (start_signals_spaced repeating blank rfl 2 f hinit).1 _ h hrun

/-! ## A sensor that does not respond -/

/-- A line that stays high. Three seconds pass after the initialisation, and then a millisecond with
each call. -/
def silent : Am2302.Hardware where
  clock n := if n < 2 then 0 else 3000000 + 1000 * n
  level _ := some 1
  direction _ _ := .successful
  mono := by
    intro n m hle
    dsimp only
    split_ifs <;> omega
  unbounded t := ⟨t + 2, by
    rw [if_neg (by omega)]
    omega⟩

theorem silent_clock {n : ℕ} (hn : 2 ≤ n) : silent.clock n = 3000000 + 1000 * n :=
  if_neg (Nat.not_lt.mpr hn)

theorem silent_waitForLevel (s : Am2302.State) (hs : 2 ≤ s.moment) {timeoutUs : ℕ}
    (htimeout : timeoutUs ≤ 2000) :
    Am2302.waitForLevel silent 0 timeoutUs s =
      (.error .actionFailed, { s with moment := s.moment + 3 }) := by
  have htime : Am2302.getTimeUs silent s =
      (.ok (silent.clock s.moment), { s with moment := s.moment + 1 }) := rfl
  have hlate : silent.clock s.moment + timeoutUs ≤ silent.clock (s.moment + 2) := by
    rw [silent_clock hs, silent_clock (by omega)]
    omega
  have hloop : Am2302.waitLoop silent 0 (silent.clock s.moment + timeoutUs) (s.moment + 1) =
      (.error .actionFailed, s.moment + 3) := by
    rw [Am2302.waitLoop]
    dsimp only [silent]
    rw [if_neg (by decide)]
    exact dif_pos hlate
  rw [Am2302.waitForLevel, Am2302.Driver.bind_ok htime, Am2302.pollUntil]
  dsimp only
  rw [hloop]

theorem silent_read (s : Am2302.State) (hs : 2 ≤ s.moment) :
    Am2302.read silent s = (.error .actionFailed, { s with moment := s.moment + 6 }) := by
  have hrequest : Am2302.sendReadRequest silent s = (.ok (), { s with moment := s.moment + 3 }) :=
    Am2302.sendReadRequest_eq_ok.mpr ⟨rfl, rfl, rfl⟩
  have hresponse : Am2302.waitForResponse silent { s with moment := s.moment + 3 } =
      (.error .actionFailed, { s with moment := s.moment + 6 }) := by
    apply Am2302.Driver.bind_error
    exact silent_waitForLevel { s with moment := s.moment + 3 } (by dsimp only; omega) (by decide)
  rw [Am2302.read, Am2302.Driver.bind_ok hrequest, Am2302.Driver.bind_error hresponse]

/-- After the initialisation, a read event makes two start signals six milliseconds apart. -/
theorem start_signals_retried :
    ∃ f g : Fsm State Data,
      Fsm.init (handlers silent) 2 .init blank = some f ∧ Run (Step silent) f [eventRead] g ∧
      (∃ t t' rest, g.data.transactions = t :: t' :: rest ∧ t.start = 3003000 ∧
        t'.start = 3009000) ∧
      ¬ Spaced g.data.transactions := by
  have hinit : ∃ f, Fsm.init (handlers silent) 2 .init blank = some f ∧ f.currentState = .idle ∧
      f.data = { blank with driver.moment := 2 } := ⟨_, rfl, rfl, rfl⟩
  obtain ⟨f, hinit, hidle, hdata⟩ := hinit
  obtain ⟨g, hsend, -, hg⟩ := sendEvent_read (w := silent) hidle
  have hdue : Due silent f.data := by
    rw [hdata]
    decide
  have hcall : am2302Read silent f.data.tick =
      (.error .actionFailed, (am2302Read silent f.data.tick).2) := by
    rw [am2302Read, silent_read f.data.tick.driver (by rw [hdata]; decide)]
  obtain ⟨next, rest, hstart, htransactions⟩ :=
    handleRead_first_error hdue (by rw [hdata]; rfl) hcall
  have hfirst : now silent f.data.tick = 3003000 := by
    rw [hdata]
    rfl
  have hnext : next.start = 3009000 := by
    rw [hstart, am2302Read, silent_read f.data.tick.driver (by rw [hdata]; decide), hdata]
    rfl
  have hg : g.data.transactions = ⟨3003000, .error .actionFailed⟩ :: next :: rest := by
    rw [hg, htransactions, hfirst, hdata]
    rfl
  refine ⟨f, g, hinit, .single ⟨3, hsend⟩, ⟨_, next, rest, hg, rfl, hnext⟩, ?_⟩
  intro hspaced
  rw [hg] at hspaced
  have htwo := (List.isChain_cons_cons.mp hspaced).1
  rw [hnext] at htwo
  exact absurd htwo (by decide)

end SnipeIt.Ddl.TemperatureHumidity
