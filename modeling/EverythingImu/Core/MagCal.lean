import EverythingImu.Core.PipelineConfig
import EverythingImu.Library.Channel
import EverythingImu.Library.StepRun

/-!
# Magnetometer calibration sessions

The calibration fields of the pipeline (`handle_mag_cal_cmd` and the sample collection of `handle_event`,
`pipeline.rs`) and the calls that drive them (`{start,cancel,finish}_mag_calibration`, `app_state.rs`) on one
registered device.  The sphere fit `calibrate` is a parameter.

A finish call clones the stored result receiver, sends `Finish` and waits for its clone to change.  The stored
receiver has never seen anything, so once a first result was published a clone of it is woken at once by the result
that is already there (`second_finish_returns_first_result`).  Along runs in which a finish call is made only before
anything was published, with no command pending and no other finish call waiting, every answer is the fit of the
samples of its own session (`finish_answers_own_session`).
-/

namespace EverythingImu.Core

open Channel StepRun

/-- A raw magnetometer sample in the device body frame, in µT. -/
abbrev Mag := Vector Float32 3

inductive MagCalCommand where
  | idle
  | start
  | finish
  | cancel
deriving DecidableEq

def MAG_CAL_BUFFER_CAP : Nat := 4000

/-- The calibration fields of the pipeline; the buffer is in the order of arrival. -/
structure MagCal where
  active : Bool
  buffer : List Mag
deriving DecidableEq

def MagCal.off : MagCal := ⟨false, []⟩

/-- `handle_mag_cal_cmd`: the fields after a command, and what is published on the result channel. -/
def MagCal.handleCmd (calibrate : List Mag → Option MagCalibration) (m : MagCal) :
    MagCalCommand → MagCal × Option (Option MagCalibration)
  | .idle => (m, none)
  | .start => (⟨true, []⟩, none)
  | .cancel => (⟨false, []⟩, none)
  | .finish => (⟨false, []⟩, some (calibrate m.buffer))

/-- The collection of one IMU sample. -/
def MagCal.collect (m : MagCal) (mag : Option Mag) : MagCal :=
  if m.active then
    match mag with
    | some sample => if m.buffer.length < MAG_CAL_BUFFER_CAP then { m with buffer := m.buffer ++ [sample] } else m
    | none => m
  else m

def MagCal.collectBatch (m : MagCal) (mags : List (Option Mag)) : MagCal := mags.foldl MagCal.collect m

/-! ### One device -/

/-- What happens to the calibration of the device: a command is sent, the pipeline handles a command, or it processes
an IMU batch.  A command is known by its version in the command watch. -/
inductive MagEvent where
  | sent (cmd : MagCalCommand) (version : Nat)
  | handled (cmd : MagCalCommand) (version : Nat)
  | batch (mags : List (Option Mag))
deriving DecidableEq

/-- A call of `finish_mag_calibration`. -/
structure FinishCall where
  /-- The version that its `Finish` has in the command watch. -/
  version : Nat
  /-- The version of the result watch that its receiver has seen. -/
  seen : Nat
  /-- What it returned; `none` while it waits. -/
  outcome : Option (Option MagCalibration)

structure MagCalState where
  cmd : Watch MagCalCommand
  /-- The version of the command watch that the pipeline has seen. -/
  cmdSeen : Nat
  magCal : MagCal
  result : Watch (Option MagCalibration)
  /-- The version that the result receiver in the registry entry has seen. -/
  storedSeen : Nat
  alive : Bool
  calls : List FinishCall
  /-- Newest first. -/
  history : List MagEvent

def MagCalState.start : MagCalState where
  cmd := Watch.channel .idle
  cmdSeen := 0
  magCal := .off
  result := Watch.channel none
  storedSeen := 0
  alive := true
  calls := []
  history := []

inductive MagCalAction where
  | startCall
  | cancelCall
  | finishCall
  /-- The wait of finish call `k` ends because its receiver has changed. -/
  | finishReturn (k : Nat)
  /-- The wait of finish call `k` ends after two seconds. -/
  | finishTimeout (k : Nat)
  /-- The pipeline takes the pending command. -/
  | cmdTurn
  | batch (mags : List (Option Mag))
  /-- The pipeline ends and drops its ends of the channels. -/
  | endPipeline
deriving DecidableEq

/-- A command reaches a live pipeline only. -/
def MagCalState.sendCmd (s : MagCalState) (cmd : MagCalCommand) : MagCalState :=
  if s.alive then
    { s with cmd := s.cmd.send cmd, history := .sent cmd (s.cmd.version + 1) :: s.history }
  else s

def MagCalState.settle (s : MagCalState) (k : Nat) (call : FinishCall) (answer : Option MagCalibration) : MagCalState :=
  { s with calls := s.calls.set k { call with outcome := some answer } }

section Device

variable (calibrate : List Mag → Option MagCalibration)

def magCalStep (s : MagCalState) : MagCalAction → Option MagCalState
  | .startCall => some (s.sendCmd .start)
  | .cancelCall => some (s.sendCmd .cancel)
  | .finishCall =>
    if s.alive then
      some { s.sendCmd .finish with calls := s.calls ++ [⟨s.cmd.version + 1, s.storedSeen, none⟩] }
    else some { s with calls := s.calls ++ [⟨s.cmd.version, s.storedSeen, some none⟩] }
  | .finishReturn k =>
    match s.calls[k]? with
    | some ⟨version, seen, none⟩ =>
      match s.result.changed seen with
      | .pending => none
      | .ready true => some (s.settle k ⟨version, seen, none⟩ s.result.value)
      | .ready false => some (s.settle k ⟨version, seen, none⟩ none)
    | _ => none
  | .finishTimeout k =>
    match s.calls[k]? with
    | some ⟨version, seen, none⟩ => some (s.settle k ⟨version, seen, none⟩ none)
    | _ => none
  | .cmdTurn =>
    if s.alive && s.cmd.changed s.cmdSeen = .ready true then
      let (magCal, published) := s.magCal.handleCmd calibrate s.cmd.value
      some { s with
        cmdSeen := s.cmd.version
        magCal
        result := match published with | some result => s.result.send result | none => s.result
        history := .handled s.cmd.value s.cmd.version :: s.history }
    else none
  | .batch mags =>
    if s.alive then
      some { s with magCal := s.magCal.collectBatch mags, history := .batch mags :: s.history }
    else none
  | .endPipeline => some { s with alive := false, result := s.result.dropSenders }

/-! ### What a session is -/

/-- The session that the calls have opened last, known by the version of its `Start`; `none` if it was finished or
cancelled. -/
def calledSession : List MagEvent → Option Nat
  | .sent .start version :: _ => some version
  | .sent .idle _ :: rest => calledSession rest
  | .sent _ _ :: _ => none
  | _ :: rest => calledSession rest
  | [] => none

/-- The magnetometer samples processed since `Start` number `session` was handled, in the order of arrival. -/
def samplesSince (session : Nat) : List MagEvent → Option (List Mag)
  | .handled .start version :: rest => if version = session then some [] else samplesSince session rest
  | .batch mags :: rest => (samplesSince session rest).map (· ++ mags.filterMap id)
  | _ :: rest => samplesSince session rest
  | [] => none

/-- The samples of a session up to the cap of the buffer; without a session, or when its `Start` was never handled,
there are none. -/
def sessionSamples (session : Option Nat) (history : List MagEvent) : List Mag :=
  ((session.bind (samplesSince · history)).getD []).take MAG_CAL_BUFFER_CAP

/-- `result` is the fit of the samples that were processed between the `Start` of the session that the `Finish` with
this version ends and that `Finish`. -/
def FitOf (history : List MagEvent) (version : Nat) (result : Option MagCalibration) : Prop :=
  ∃ newer since earlier, history = newer ++ .handled .finish version :: (since ++ .sent .finish version :: earlier) ∧
    result = calibrate (sessionSamples (calledSession earlier) (since ++ .sent .finish version :: earlier))

/-- A value that a finish call returned is the fit of its own session. -/
def FinishCall.AnsweredByOwnSession (history : List MagEvent) (call : FinishCall) : Prop :=
  ∀ cal, call.outcome = some (some cal) → FitOf calibrate history call.version (some cal)

/-- A finish call is made only before anything was published, with no command pending and no other finish call
waiting. -/
def FirstFinishOnly (s : MagCalState) (a : MagCalAction) : Prop :=
  a = .finishCall →
    s.result.version = s.storedSeen ∧ s.cmd.version = s.cmdSeen ∧ ∀ call ∈ s.calls, call.outcome ≠ none

instance (s : MagCalState) (a : MagCalAction) : Decidable (FirstFinishOnly s a) :=
  inferInstanceAs (Decidable (_ → _ ∧ _ ∧ _))

/-! ### The session that the pipeline has open -/

/-- The session that the pipeline has open, by the version of its `Start`, with its samples. -/
def openSession : List MagEvent → Option (Nat × List Mag)
  | .handled .start version :: _ => some (version, [])
  | .handled .idle _ :: rest => openSession rest
  | .handled _ _ :: _ => none
  | .sent _ _ :: rest => openSession rest
  | .batch mags :: rest => (openSession rest).map fun o => (o.1, o.2 ++ mags.filterMap id)
  | [] => none

theorem samplesSince_of_open {history : List MagEvent} {session : Nat} {samples : List Mag}
    (h : openSession history = some (session, samples)) : samplesSince session history = some samples := by
  induction history generalizing samples with
  | nil => cases h
  | cons e rest ih =>
    cases e with
    | sent cmd version => exact ih h
    | handled cmd version =>
      cases cmd with
      | idle => exact ih h
      | start =>
        cases h
        simp [samplesSince]
      | finish => cases h
      | cancel => cases h
    | batch mags =>
      obtain ⟨⟨session', old⟩, ho, heq⟩ := Option.map_eq_some_iff.1 h
      cases heq
      simp [samplesSince, ih ho]

/-- The calibration fields that go with an open session. -/
def MagCal.ofSession (session : Option (Nat × List Mag)) : MagCal where
  active := session.isSome
  buffer := ((session.map (·.2)).getD []).take MAG_CAL_BUFFER_CAP

theorem collect_ofSession (session : Nat) (samples : List Mag) (mag : Option Mag) :
    (MagCal.ofSession (some (session, samples))).collect mag =
      MagCal.ofSession (some (session, samples ++ mag.toList)) := by
  cases mag with
  | none => simp [MagCal.collect, MagCal.ofSession]
  | some m =>
    simp only [MagCal.collect, MagCal.ofSession, Option.isSome_some, if_true, Option.map_some, Option.getD_some,
      List.length_take, Option.toList_some]
    by_cases hlen : samples.length < MAG_CAL_BUFFER_CAP
    · rw [if_pos (by omega), List.take_of_length_le (by omega), List.take_of_length_le (by simp; omega)]
    · rw [if_neg (by omega), List.take_append_of_le_length (by omega)]

theorem collectBatch_ofSession (session : Option (Nat × List Mag)) (mags : List (Option Mag)) :
    (MagCal.ofSession session).collectBatch mags =
      MagCal.ofSession (session.map fun o => (o.1, o.2 ++ mags.filterMap id)) := by
  unfold MagCal.collectBatch
  cases session with
  | none =>
    have hoff : ∀ mag, (MagCal.ofSession none).collect mag = MagCal.ofSession none := fun _ => rfl
    induction mags with
    | nil => rfl
    | cons mag mags ih => rw [List.foldl_cons, hoff, ih]; rfl
  | some o =>
    obtain ⟨session, samples⟩ := o
    induction mags generalizing samples with
    | nil => simp
    | cons mag mags ih =>
      rw [List.foldl_cons, collect_ofSession, ih]
      cases mag <;> simp

/-! ### Runs -/

def MagCalState.PendingFinish (s : MagCalState) : Prop := s.cmd.value = .finish ∧ s.cmd.version ≠ s.cmdSeen

structure MagCalInvariant (s : MagCalState) : Prop where
  fields : s.magCal = MagCal.ofSession (openSession s.history)
  stored : s.storedSeen = 0
  seen : ∀ call ∈ s.calls, call.seen = 0
  cmdSeen : s.cmdSeen ≤ s.cmd.version
  idle : s.cmd.value = .idle → s.cmd.version = s.cmdSeen
  /-- The command watch holds the last command that was sent. -/
  called : calledSession s.history = if s.cmd.value = .start then some s.cmd.version else none
  /-- With no command pending the pipeline has the session open that was called last. -/
  synced : s.cmd.version = s.cmdSeen → (openSession s.history).map (·.1) = calledSession s.history
  /-- A pending `Finish` was sent while the pipeline had the called session open. -/
  pending : s.PendingFinish → ∃ since earlier, s.history = since ++ .sent .finish s.cmd.version :: earlier ∧
    (openSession s.history).map (·.1) = calledSession earlier
  /-- Either nothing is published and only the call's own `Finish` can be pending, or the result is the call's own. -/
  waiting : ∀ call ∈ s.calls, call.outcome = none →
    (s.result.version = 0 ∧ (s.PendingFinish → s.cmd.version = call.version)) ∨
      (¬ s.PendingFinish ∧ FitOf calibrate s.history call.version s.result.value)
  answered : ∀ call ∈ s.calls, call.AnsweredByOwnSession calibrate s.history

variable {calibrate}

theorem FitOf.cons {history : List MagEvent} {version : Nat} {result : Option MagCalibration}
    (h : FitOf calibrate history version result) (e : MagEvent) : FitOf calibrate (e :: history) version result := by
  obtain ⟨newer, since, earlier, rfl, hres⟩ := h
  exact ⟨e :: newer, since, earlier, rfl, hres⟩

theorem FinishCall.AnsweredByOwnSession.cons {history : List MagEvent} {call : FinishCall}
    (h : call.AnsweredByOwnSession calibrate history) (e : MagEvent) :
    call.AnsweredByOwnSession calibrate (e :: history) :=
  fun cal hcal => (h cal hcal).cons e

theorem magCalInvariant_start : MagCalInvariant calibrate .start where
  fields := rfl
  stored := rfl
  seen := by simp [MagCalState.start]
  cmdSeen := Nat.le_refl _
  idle := fun _ => rfl
  called := rfl
  synced := fun _ => rfl
  pending := fun h => by cases h.1
  waiting := by simp [MagCalState.start]
  answered := by simp [MagCalState.start]

/-- Sending a command other than `Finish` leaves no `Finish` pending. -/
private theorem MagCalInvariant.send {s : MagCalState} (h : MagCalInvariant calibrate s) {cmd : MagCalCommand}
    (hidle : cmd ≠ .idle) (hfin : cmd ≠ .finish) : MagCalInvariant calibrate (s.sendCmd cmd) := by
  unfold MagCalState.sendCmd
  split
  · have hnot : ¬ MagCalState.PendingFinish
        { s with cmd := s.cmd.send cmd, history := .sent cmd (s.cmd.version + 1) :: s.history } :=
      fun hp => hfin hp.1
    have hlt := h.cmdSeen
    refine ⟨h.fields, h.stored, h.seen, Nat.le_succ_of_le h.cmdSeen, fun hv => absurd hv hidle, ?_, fun hv => ?_,
      fun hp => absurd hp hnot, ?_, fun call hc => (h.answered call hc).cons _⟩
    · cases cmd <;> simp_all [calledSession]
    · simp only [Watch.send_version] at hv
      omega
    · intro call hc hw
      rcases h.waiting call hc hw with ⟨hv, -⟩ | ⟨-, hfit⟩
      · exact Or.inl ⟨hv, fun hp => absurd hp hnot⟩
      · exact Or.inr ⟨hnot, hfit.cons _⟩
  · exact h

private theorem MagCalInvariant.finishCall {s s' : MagCalState} (h : MagCalInvariant calibrate s)
    (hok : FirstFinishOnly s .finishCall) (hs : magCalStep calibrate s .finishCall = some s') :
    MagCalInvariant calibrate s' := by
  obtain ⟨hpub, hnone, hwait⟩ := hok rfl
  rw [h.stored] at hpub
  simp only [magCalStep] at hs
  split at hs
  · rename_i halive
    cases hs
    have hlt := h.cmdSeen
    rw [MagCalState.sendCmd, if_pos halive]
    refine ⟨h.fields, h.stored, ?_, Nat.le_succ_of_le h.cmdSeen, nofun, rfl, fun hv => ?_,
      fun _ => ⟨[], s.history, rfl, h.synced hnone⟩, ?_, ?_⟩
    · intro call hc
      rcases List.mem_append.1 hc with hc | hc
      · exact h.seen call hc
      · rw [List.mem_singleton.1 hc]
        exact h.stored
    · simp only [Watch.send_version] at hv
      omega
    · intro call hc hw
      rcases List.mem_append.1 hc with hc | hc
      · exact absurd hw (hwait call hc)
      · rw [List.mem_singleton.1 hc]
        exact Or.inl ⟨hpub, fun _ => rfl⟩
    · intro call hc
      rcases List.mem_append.1 hc with hc | hc
      · exact (h.answered call hc).cons _
      · rw [List.mem_singleton.1 hc]
        intro cal hcal
        cases hcal
  · cases hs
    refine { h with seen := ?_, waiting := ?_, answered := ?_ }
    · intro call hc
      rcases List.mem_append.1 hc with hc | hc
      · exact h.seen call hc
      · rw [List.mem_singleton.1 hc]
        exact h.stored
    · intro call hc hw
      rcases List.mem_append.1 hc with hc | hc
      · exact h.waiting call hc hw
      · rw [List.mem_singleton.1 hc] at hw
        cases hw
    · intro call hc
      rcases List.mem_append.1 hc with hc | hc
      · exact h.answered call hc
      · rw [List.mem_singleton.1 hc]
        intro cal hcal
        cases hcal

/-- A waiting call that ends with an answer of its own session, or with none. -/
private theorem MagCalInvariant.settle {s : MagCalState} (h : MagCalInvariant calibrate s) {k version seen : Nat}
    {answer : Option MagCalibration} (hk : s.calls[k]? = some ⟨version, seen, none⟩)
    (hans : ∀ cal, answer = some cal → FitOf calibrate s.history version (some cal)) :
    MagCalInvariant calibrate (s.settle k ⟨version, seen, none⟩ answer) := by
  have hold : ∀ call ∈ (s.settle k ⟨version, seen, none⟩ answer).calls,
      call ∈ s.calls ∨ call = ⟨version, seen, some answer⟩ :=
    fun call hc => List.mem_or_eq_of_mem_set hc
  refine { h with seen := ?_, waiting := ?_, answered := ?_ }
  · intro call hc
    rcases hold call hc with hc | rfl
    · exact h.seen call hc
    · have hseen : seen = 0 := h.seen _ (List.mem_of_getElem? hk)
      exact hseen
  · intro call hc hw
    rcases hold call hc with hc | rfl
    · exact h.waiting call hc hw
    · cases hw
  · intro call hc
    rcases hold call hc with hc | rfl
    · exact h.answered call hc
    · intro cal hcal
      exact hans cal (by simpa using hcal)

private theorem MagCalInvariant.batch {s : MagCalState} (h : MagCalInvariant calibrate s)
    (mags : List (Option Mag)) :
    MagCalInvariant calibrate { s with magCal := s.magCal.collectBatch mags, history := .batch mags :: s.history } := by
  have hfst : (openSession (.batch mags :: s.history)).map (·.1) = (openSession s.history).map (·.1) := by
    simp only [openSession, Option.map_map]
    rfl
  refine { h with fields := ?_, called := h.called, synced := ?_, pending := ?_, waiting := ?_, answered := ?_ }
  · simp only
    rw [h.fields, collectBatch_ofSession]
    rfl
  · intro hv
    exact hfst.trans (h.synced hv)
  · intro hp
    obtain ⟨since, earlier, hhist, hopen⟩ := h.pending hp
    refine ⟨.batch mags :: since, earlier, ?_, hfst.trans hopen⟩
    simp only
    rw [hhist]
    rfl
  · intro call hc hw
    rcases h.waiting call hc hw with hw | ⟨hnot, hfit⟩
    · exact Or.inl hw
    · exact Or.inr ⟨hnot, hfit.cons _⟩
  · exact fun call hc => (h.answered call hc).cons _

/-- Handling a pending `Finish` publishes the fit of the session that it ends. -/
private theorem MagCalInvariant.fitOf_finish {s : MagCalState} (h : MagCalInvariant calibrate s)
    (hp : s.PendingFinish) :
    FitOf calibrate (.handled .finish s.cmd.version :: s.history) s.cmd.version (calibrate s.magCal.buffer) := by
  obtain ⟨since, earlier, hhist, hopen⟩ := h.pending hp
  refine ⟨[], since, earlier, by rw [hhist]; rfl, ?_⟩
  rw [← hhist, ← hopen, h.fields]
  congr 1
  unfold sessionSamples MagCal.ofSession
  cases ho : openSession s.history with
  | none => rfl
  | some o =>
    obtain ⟨session, samples⟩ := o
    simp [samplesSince_of_open ho]

/-- Handling a command leaves the fields of the session that it opens, or of none. -/
private theorem handleCmd_ofSession {cmd : MagCalCommand} (hcmd : cmd ≠ .idle) (m : MagCal) (version : Nat)
    (history : List MagEvent) :
    (m.handleCmd calibrate cmd).1 = MagCal.ofSession (openSession (.handled cmd version :: history)) := by
  cases cmd with
  | idle => exact absurd rfl hcmd
  | start => rfl
  | finish => rfl
  | cancel => rfl

private theorem openSession_handled {cmd : MagCalCommand} (hcmd : cmd ≠ .idle) (version : Nat)
    (history : List MagEvent) :
    (openSession (.handled cmd version :: history)).map (·.1) = if cmd = .start then some version else none := by
  cases cmd with
  | idle => exact absurd rfl hcmd
  | start => rfl
  | finish => rfl
  | cancel => rfl

/-- After the pending command was handled no command is pending; what it leaves in the result watch has to be the
answer of the calls that wait. -/
private theorem MagCalInvariant.handled {s : MagCalState} (h : MagCalInvariant calibrate s)
    (hcmd : s.cmd.value ≠ .idle) (result : Watch (Option MagCalibration))
    (hwait : ∀ call ∈ s.calls, call.outcome = none → result.version = 0 ∨
      FitOf calibrate (.handled s.cmd.value s.cmd.version :: s.history) call.version result.value) :
    MagCalInvariant calibrate { s with
      cmdSeen := s.cmd.version
      magCal := .ofSession (openSession (.handled s.cmd.value s.cmd.version :: s.history))
      result
      history := .handled s.cmd.value s.cmd.version :: s.history } := by
  refine { h with
    fields := rfl, cmdSeen := Nat.le_refl _, idle := fun _ => rfl, called := ?_, synced := fun _ => ?_
    pending := fun hp => absurd rfl hp.2, waiting := ?_, answered := fun call hc => (h.answered call hc).cons _ }
  · exact h.called
  · have hopen := openSession_handled hcmd s.cmd.version s.history
    exact hopen.trans h.called.symm
  · intro call hc hw
    rcases hwait call hc hw with hver | hfit
    · exact Or.inl ⟨hver, fun hp => absurd rfl hp.2⟩
    · exact Or.inr ⟨fun hp => hp.2 rfl, hfit⟩

private theorem MagCalInvariant.cmdTurn {s s' : MagCalState} (h : MagCalInvariant calibrate s)
    (hs : magCalStep calibrate s .cmdTurn = some s') : MagCalInvariant calibrate s' := by
  simp only [magCalStep] at hs
  split at hs
  case isFalse => cases hs
  rename_i hready
  cases hs
  have hne : s.cmd.version ≠ s.cmdSeen := by
    have hready : s.alive = true ∧ s.cmd.changed s.cmdSeen = .ready true := by simpa using hready
    exact Watch.changed_ready_true_iff.1 hready.2
  have hcmd : s.cmd.value ≠ .idle := fun hv => hne (h.idle hv)
  rw [handleCmd_ofSession hcmd s.magCal s.cmd.version s.history]
  refine h.handled hcmd _ fun call hc hw => ?_
  have hold : s.result.version = 0 ∨
      FitOf calibrate (.handled s.cmd.value s.cmd.version :: s.history) call.version s.result.value := by
    rcases h.waiting call hc hw with ⟨hver, -⟩ | ⟨-, hfit⟩
    · exact Or.inl hver
    · exact Or.inr (hfit.cons _)
  by_cases hfin : s.cmd.value = .finish
  · have hp : s.PendingFinish := ⟨hfin, hne⟩
    rw [hfin]
    rcases h.waiting call hc hw with ⟨-, hver⟩ | ⟨hnot, -⟩
    · rw [← hver hp]
      exact Or.inr (h.fitOf_finish hp)
    · exact absurd hp hnot
  · -- nothing is published for the other commands
    have hnone : (s.magCal.handleCmd calibrate s.cmd.value).2 = none := by
      cases hv : s.cmd.value with
      | finish => exact absurd hv hfin
      | _ => rfl
    rw [hnone]
    exact hold

/-- Every step that meets the condition keeps the invariant. -/
theorem MagCalInvariant.step {s s' : MagCalState} {a : MagCalAction} (h : MagCalInvariant calibrate s)
    (hok : FirstFinishOnly s a) (hs : magCalStep calibrate s a = some s') : MagCalInvariant calibrate s' := by
  cases a with
  | startCall =>
    cases hs
    exact h.send (by decide) (by decide)
  | cancelCall =>
    cases hs
    exact h.send (by decide) (by decide)
  | finishCall => exact h.finishCall hok hs
  | finishReturn k =>
    simp only [magCalStep] at hs
    split at hs
    · rename_i version seen hk
      have hmem := List.mem_of_getElem? hk
      split at hs
      · cases hs
      · rename_i hch
        cases hs
        refine h.settle hk fun cal hcal => ?_
        have hseen : seen = 0 := h.seen _ hmem
        rcases h.waiting _ hmem rfl with ⟨hver, -⟩ | ⟨-, hfit⟩
        · -- the receiver has changed, so something was published
          exact absurd (hver.trans hseen.symm) (Watch.changed_ready_true_iff.1 hch)
        · rw [← hcal]
          exact hfit
      · cases hs
        exact h.settle hk fun cal hcal => by cases hcal
    · cases hs
  | finishTimeout k =>
    simp only [magCalStep] at hs
    split at hs
    · rename_i hk
      cases hs
      exact h.settle hk fun cal hcal => by cases hcal
    · cases hs
  | cmdTurn => exact h.cmdTurn hs
  | batch mags =>
    simp only [magCalStep] at hs
    split at hs
    · cases hs
      exact h.batch mags
    · cases hs
  | endPipeline =>
    cases hs
    exact { h with }

/-- Along runs in which a finish call is made only before anything was published, with no command pending and no other
finish call waiting, every value that a finish call returns is the fit of its own session. -/
theorem finish_answers_own_session {s : MagCalState}
    (h : Reaches (magCalStep calibrate) FirstFinishOnly .start s) {call : FinishCall} (hc : call ∈ s.calls) :
    call.AnsweredByOwnSession calibrate s.history := by
  have hinv : MagCalInvariant calibrate s :=
    h.invariant magCalInvariant_start fun _ _ _ hi hok hs => hi.step hok hs
  exact hinv.answered call hc

end Device

/-- Two readings of a field of strength `r` in each direction of each axis. -/
def axisCloud (r : Float32) : List Mag :=
  let once := [#v[r, 0, 0], #v[-r, 0, 0], #v[0, r, 0], #v[0, -r, 0], #v[0, 0, r], #v[0, 0, -r]]
  once ++ once

def axisFit (r : Float32) : MagCalibration := ⟨#v[0, 0, 0], r, 0, 6 / 26⟩

/-- The sphere fit on axis clouds: their radius, around the origin; too few samples have no fit. -/
def fitAxisCloud (samples : List Mag) : Option MagCalibration :=
  if samples.length < 12 then none else samples.head?.map fun sample => axisFit (sample.get 0)

/-- One session: start, a batch of samples, finish. -/
def sessionRun (r : Float32) : List MagCalAction :=
  [.startCall, .cmdTurn, .batch ((axisCloud r).map some), .finishCall]

/-- The first session of a device is answered by its own fit. -/
theorem first_finish_returns_own_fit :
    ∃ s, Reaches (magCalStep fitAxisCloud) FirstFinishOnly .start s ∧
      ∃ call ∈ s.calls, call.outcome = some (some (axisFit 30)) ∧
        call.AnsweredByOwnSession fitAxisCloud s.history := by
  let run := exec (guardStep (magCalStep fitAxisCloud) FirstFinishOnly) .start
    (sessionRun 30 ++ [.cmdTurn, .finishReturn 0])
  have hsome : run.isSome = true := by decide +kernel
  obtain ⟨s, hs⟩ := Option.isSome_iff_exists.1 hsome
  have hcalls : run.map (fun s => s.calls.map (·.outcome)) = some [some (some (axisFit 30))] := by decide +kernel
  rw [hs, Option.map_some, Option.some.injEq] at hcalls
  obtain ⟨call, hmem, hout⟩ := List.mem_map.1 (hcalls ▸ List.mem_singleton_self _)
  exact ⟨s, Reaches.of_exec _ hs, call, hmem, hout, finish_answers_own_session (Reaches.of_exec _ hs) hmem⟩

/-- The second session of a device is answered with the fit of the first, before the pipeline has handled its
`Finish`. -/
theorem second_finish_returns_first_result :
    ∃ s, Reaches (magCalStep fitAxisCloud) Always .start s ∧
      ∃ call ∈ s.calls, call.outcome = some (some (axisFit 30)) ∧ .handled .finish call.version ∉ s.history ∧
        ¬ call.AnsweredByOwnSession fitAxisCloud s.history := by
  let run := exec (magCalStep fitAxisCloud) .start
    (sessionRun 30 ++ [.cmdTurn, .finishReturn 0] ++ sessionRun 40 ++ [.finishReturn 1])
  have hsome : run.isSome = true := by decide +kernel
  obtain ⟨s, hs⟩ := Option.isSome_iff_exists.1 hsome
  have hcalls : run.map (fun s => s.calls[1]?.map fun c => (c.outcome,
      decide (.handled .finish c.version ∈ s.history))) = some (some (some (some (axisFit 30)), false)) := by
    decide +kernel
  rw [hs, Option.map_some, Option.some.injEq] at hcalls
  obtain ⟨call, hcall, hout⟩ := Option.map_eq_some_iff.1 hcalls
  simp only [Prod.mk.injEq, decide_eq_false_iff_not] at hout
  refine ⟨s, Reaches.of_run _ hs, call, List.mem_of_getElem? hcall, hout.1, hout.2, fun hans => ?_⟩
  obtain ⟨newer, since, earlier, hhist, -⟩ := hans _ hout.1
  exact hout.2 (by rw [hhist]; simp)

end EverythingImu.Core
