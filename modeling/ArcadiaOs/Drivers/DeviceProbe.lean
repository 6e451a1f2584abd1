import ArcadiaOs.Drivers.Attempts
import Mathlib.Data.List.DropRight

/-!
How the driver of `drivers/ata/mod.rs` finds its devices: the probe of one position, and `init` and
`reset`, which probe the four positions.  What `init` prints is left out.
-/

namespace ArcadiaOs.Drivers

open Lib

def cmdIdentifyDrive : Nat := 0xEC

inductive DriverStatus
  | uninitialized | initializing | ready | error | disabled
  deriving DecidableEq

structure AtaDeviceInfo where
  present : Bool
  isAta : Bool
  sectors28 : Nat
  lba48 : Bool
  model : List Nat
  serial : List Nat
  firmware : List Nat
  deriving DecidableEq

def AtaDeviceInfo.new : AtaDeviceInfo := ⟨false, false, 0, false, [], [], []⟩

structure AtaDriver where
  status : DriverStatus
  primaryMaster : AtaDeviceInfo
  primarySlave : AtaDeviceInfo
  secondaryMaster : AtaDeviceInfo
  secondarySlave : AtaDeviceInfo
  deriving DecidableEq

def swapBytes (word : Nat) : List Nat := [(word >>> 8) % 2 ^ 8, word % 2 ^ 8]

def blank (byte : Nat) : Bool := byte = 0x20 || byte = 0

def extractString (data : List Nat) (startWord endWord : Nat) : List Nat :=
  ((List.range' startWord (endWord + 1 - startWord)).flatMap fun index =>
    swapBytes (data.getD index 0)).rdropWhile blank

def identified (data : List Nat) : AtaDeviceInfo where
  present := true
  isAta := true
  serial := extractString data 10 19
  firmware := extractString data 23 26
  model := extractString data 27 46
  sectors28 := data.getD 61 0 <<< 16 ||| data.getD 60 0
  lba48 := data.getD 83 0 &&& 1 <<< 10 ≠ 0

def succeeds (call : Ata Unit) : Ata Bool := fun io =>
  match call io with
  | .ok _ done => .ok true done
  | .error _ failed => .ok false failed

section Probe

variable (channel : AtaChannel)

def pollBsy : Ata Unit := pollNotBusyFor channel pollTimeout

def receiveIdentity : Nat → Ata (List Nat)
  | 0 => pure []
  | count + 1 => do
      let word ← channel.readDataWord
      let words ← receiveIdentity count
      pure (word :: words)

def requestIdentity (slave : Bool) : Ata Unit := do
  selectDevice channel slave
  channel.writeReg 1 0x00
  channel.writeReg 2 0x00
  channel.writeReg 3 0x00
  channel.writeReg 4 0x00
  channel.writeReg 5 0x00
  channel.writeReg 7 cmdIdentifyDrive

/-- The end of a probe, from the wait for the words on. -/
def probeWords : Ata AtaDeviceInfo := do
  let ready ← succeeds (pollDrq channel)
  if !ready then pure .new
  else
    let data ← receiveIdentity channel 256
    let idle ← succeeds (pollNotBusy channel)
    pure (if idle then identified data else .new)

def probeAnswer : Ata AtaDeviceInfo := do
  let status ← channel.readReg 7
  if status = 0 then pure .new
  else
    let idle ← succeeds (pollBsy channel)
    if !idle then pure .new
    else
      let mid ← channel.readReg 4
      let high ← channel.readReg 5
      if mid ≠ 0 ∨ high ≠ 0 then pure .new else probeWords channel

def probeDevice (slave : Bool) : Ata AtaDeviceInfo := do
  requestIdentity channel slave
  probeAnswer channel

end Probe

namespace AtaDriver

def new : AtaDriver := ⟨.uninitialized, .new, .new, .new, .new⟩

def devices (driver : AtaDriver) : List AtaDeviceInfo :=
  [driver.primaryMaster, driver.primarySlave, driver.secondaryMaster, driver.secondarySlave]

/-- How both `init` and `reset` begin. -/
def scan (driver : AtaDriver) : Ata AtaDriver := do
  let primary := getChannel primaryBase
  let secondary := getChannel secondaryBase
  softwareReset primary
  softwareReset secondary
  let primaryMaster ← probeDevice primary false
  let primarySlave ← probeDevice primary true
  let secondaryMaster ← probeDevice secondary false
  let secondarySlave ← probeDevice secondary true
  pure { driver with
    status := .initializing
    primaryMaster, primarySlave, secondaryMaster, secondarySlave }

def init (driver : AtaDriver) : Ata (AtaDriver × Except DriverError Unit) := do
  let driver ← driver.scan
  pure (if driver.devices.any fun info => info.present && info.isAta then
      ({ driver with status := .ready }, .ok ())
    else ({ driver with status := .error }, .error .deviceNotFound))

def probe (driver : AtaDriver) : Bool := driver.devices.any fun info => info.present

def reset (driver : AtaDriver) : Ata AtaDriver := do
  let driver ← driver.scan
  pure { driver with status := if driver.probe then .ready else .error }

end AtaDriver

/-- The static driver is installed when it is ready. -/
def initAtaDriver (installed : Option AtaDriver) : Ata (Except DriverError Unit × Option AtaDriver) := do
  match ← AtaDriver.new.init with
  | (driver, .ok _) => pure (.ok (), some driver)
  | (_, .error reason) => pure (.error reason, installed)

/-! What the device has to answer. -/

/-- A poll takes the status at `position`: the first that it accepts, before its turns are over and
without one that it refuses. -/
structure Polled (accepts refuses : Nat → Prop) (turns : Nat) (device : Nat → Nat)
    (start position : Nat) : Prop extends FirstStatus accepts device start position where
  soon : position < start + turns
  passed : ∀ earlier, start ≤ earlier → earlier < position → ¬refuses (device earlier % 2 ^ 8)

/-- The words of a device, and the polls around them. -/
structure CleanWords (device : Nat → Nat) (start : Nat) (words : List Nat) (readyAt endAt : Nat) :
    Prop where
  ready : Polled DataReady (fun status => ¬NoError status) pollTimeout device start readyAt
  words : words = (List.range 256).map fun word => device (readyAt + 1 + word) % 2 ^ 16
  settled : Polled NotBusy (fun _ => False) pollTimeout device (readyAt + 257) endAt

/-- The answers from `start` on are those of a device with these words. -/
structure CleanIdentity (device : Nat → Nat) (start : Nat) (words : List Nat)
    (idleAt readyAt endAt : Nat) : Prop where
  answered : device start % 2 ^ 8 ≠ 0
  idle : Polled NotBusy (fun _ => False) pollTimeout device (start + 1) idleAt
  mid : device (idleAt + 1) % 2 ^ 8 = 0
  high : device (idleAt + 2) % 2 ^ 8 = 0
  data : CleanWords device (idleAt + 3) words readyAt endAt

def Identifies (device : Nat → Nat) (start : Nat) (words : List Nat) : Prop :=
  ∃ idleAt readyAt endAt, CleanIdentity device start words idleAt readyAt endAt

section Polls

variable {accepts refuses : Nat → Prop} {turns : Nat} {device : Nat → Nat} {start position : Nat}
  {channel : AtaChannel}

theorem Polled.here (accepted : accepts (device start % 2 ^ 8)) :
    Polled accepts refuses (turns + 1) device start start :=
  ⟨.here accepted, by omega, fun _ from_start before => by omega⟩

theorem Polled.next (refused : ¬accepts (device start % 2 ^ 8))
    (goes : ¬refuses (device start % 2 ^ 8))
    (polled : Polled accepts refuses turns device (start + 1) position) :
    Polled accepts refuses (turns + 1) device start position := by
  refine ⟨polled.toFirstStatus.next refused, by have := polled.soon; omega, ?_⟩
  intro earlier from_start before
  rcases Nat.eq_or_lt_of_le from_start with rfl | later
  · exact goes
  · exact polled.passed earlier later before

theorem Polled.tail (polled : Polled accepts refuses (turns + 1) device start position)
    (refused : ¬accepts (device start % 2 ^ 8)) :
    ¬refuses (device start % 2 ^ 8) ∧ Polled accepts refuses turns device (start + 1) position := by
  have later : start < position := by
    refine Nat.lt_of_le_of_ne polled.reached ?_
    rintro rfl
    exact refused polled.accepted
  have soon := polled.soon
  exact ⟨polled.passed start (Nat.le_refl _) later, ⟨⟨later, polled.accepted,
    fun earlier from_start => polled.waited earlier (by omega)⟩, by omega,
    fun earlier from_start => polled.passed earlier (by omega)⟩⟩

theorem Polled.unique {other : Nat} (polled : Polled accepts refuses turns device start position)
    (again : Polled accepts refuses turns device start other) : other = position := by
  rcases Nat.lt_trichotomy other position with before | same | behind
  · exact absurd again.accepted (polled.waited other again.reached before)
  · exact same
  · exact absurd polled.accepted (again.waited position polled.reached behind)

structure PollAnswer (accepts refuses : Nat → Prop) (turns : Nat) (io : AtaIo) (passes : Bool)
    (reads : Nat) : Prop where
  forward : io.reads ≤ reads
  bounded : reads ≤ io.reads + turns
  passed : passes = true → ∃ position, Polled accepts refuses turns io.device io.reads position ∧
    reads = position + 1
  failed : passes = false → ∀ position, ¬Polled accepts refuses turns io.device io.reads position

structure PollTurn (accepts refuses : Nat → Prop) (io : AtaIo) (turn rest : Ata Unit) : Prop where
  takes : accepts (io.device io.reads % 2 ^ 8) → turn io = .ok () { io with reads := io.reads + 1 }
  stops : ¬accepts (io.device io.reads % 2 ^ 8) → refuses (io.device io.reads % 2 ^ 8) →
    ∃ reason, turn io = .error reason { io with reads := io.reads + 1 }
  waits : ¬accepts (io.device io.reads % 2 ^ 8) → ¬refuses (io.device io.reads % 2 ^ 8) →
    turn io = rest { io with reads := io.reads + 1 }

theorem poll_answers {poll : Nat → Ata Unit} {reason : DriverError} (ends : poll 0 = throw reason)
    (turn : ∀ turns io, PollTurn accepts refuses io (poll (turns + 1)) (poll turns)) (turns : Nat)
    (io : AtaIo) : ∃ passes reads, succeeds (poll turns) io = .ok passes { io with reads } ∧
      PollAnswer accepts refuses turns io passes reads := by
  induction turns generalizing io with
  | zero =>
      refine ⟨false, io.reads, by rw [succeeds, ends]; rfl, ?_⟩
      refine ⟨Nat.le_refl _, Nat.le_refl _, by simp, fun _ position polled => ?_⟩
      have := polled.soon
      have := polled.reached
      omega
  | succ turns ih =>
      by_cases accepted : accepts (io.device io.reads % 2 ^ 8)
      · refine ⟨true, io.reads + 1, by rw [succeeds, (turn turns io).takes accepted], ?_⟩
        exact ⟨by omega, by omega, fun _ => ⟨io.reads, .here accepted, rfl⟩, by simp⟩
      by_cases refused : refuses (io.device io.reads % 2 ^ 8)
      · obtain ⟨_, stopped⟩ := (turn turns io).stops accepted refused
        refine ⟨false, io.reads + 1, by rw [succeeds, stopped], ?_⟩
        exact ⟨by omega, by omega, by simp, fun _ position polled =>
          (polled.tail accepted).1 refused⟩
      obtain ⟨passes, reads, ran, answer⟩ := ih { io with reads := io.reads + 1 }
      have forward := answer.forward
      have bounded := answer.bounded
      simp only at forward bounded
      refine ⟨passes, reads, ?_, by omega, by omega, ?_, ?_⟩
      · rw [succeeds, (turn turns io).waits accepted refused]
        exact ran
      · intro passed
        obtain ⟨position, polled, rfl⟩ := answer.passed passed
        exact ⟨position, polled.next accepted refused, rfl⟩
      · intro failed position polled
        exact answer.failed failed position (polled.tail accepted).2

theorem pollNotBusyFor_answers (turns : Nat) (io : AtaIo) : ∃ passes reads,
    succeeds (pollNotBusyFor channel turns) io = .ok passes { io with reads } ∧
      PollAnswer NotBusy (fun _ => False) turns io passes reads := by
  refine poll_answers rfl (fun turns io => ?_) turns io
  have turn : pollNotBusyFor channel (turns + 1) io =
      (if io.device io.reads % 2 ^ 8 &&& statusBsy = 0 then pure ()
        else pollNotBusyFor channel turns : Ata Unit) { io with reads := io.reads + 1 } := rfl
  refine ⟨fun idle => ?_, fun _ never => never.elim, fun busy _ => ?_⟩
  · exact turn.trans (congrFun (if_pos idle) _)
  · exact turn.trans (congrFun (if_neg busy) _)

theorem pollDrqFor_answers (turns : Nat) (io : AtaIo) : ∃ passes reads,
    succeeds (pollDrqFor channel turns) io = .ok passes { io with reads } ∧
      PollAnswer DataReady (fun status => ¬NoError status) turns io passes reads := by
  refine poll_answers rfl (fun turns io => ?_) turns io
  have turn : pollDrqFor channel (turns + 1) io =
      (if io.device io.reads % 2 ^ 8 &&& statusBsy = 0 ∧ io.device io.reads % 2 ^ 8 &&& statusDrq ≠ 0
        then pure ()
        else if io.device io.reads % 2 ^ 8 &&& (statusErr ||| statusDf) ≠ 0 then throw .ioError
        else pollDrqFor channel turns : Ata Unit) { io with reads := io.reads + 1 } := rfl
  refine ⟨fun ready => ?_, fun waiting refused => ⟨.ioError, ?_⟩, fun waiting clean => ?_⟩
  · exact turn.trans (congrFun (if_pos ready) _)
  · exact turn.trans (congrFun ((if_neg waiting).trans (if_pos refused)) _)
  · exact turn.trans (congrFun ((if_neg waiting).trans (if_neg clean)) _)

end Polls

section Position

variable {channel : AtaChannel} {slave : Bool}

theorem receiveIdentity_eq (count : Nat) (io : AtaIo) :
    receiveIdentity channel count io =
      .ok ((List.range count).map fun word => io.device (io.reads + word) % 2 ^ 16)
        { io with reads := io.reads + count } := by
  induction count generalizing io with
  | zero => rfl
  | succ count ih =>
      rw [receiveIdentity, bind_apply, readDataWord_eq]
      simp only [bind_apply, ih]
      rw [List.range_succ_eq_map]
      simp [pure, EStateM.pure, Function.comp_def, Nat.add_assoc, Nat.add_comm 1]

/-- The command of a probe: IDENTIFY to one of the two devices, with all parameters zero. -/
structure AsksIdentity (channel : AtaChannel) (slave : Bool) (after : AtaIo) (command : Command) :
    Prop where
  opcode : command.opcode = cmdIdentifyDrive
  registers : ∀ offset, command.register offset = after.ports (channel.basePort + offset)
  parameters : ∀ offset, 1 ≤ offset → offset ≤ 5 → command.register offset = 0
  selected : command.register 6 = if slave then 0xB0 else 0xA0

theorem requestIdentity_asks (io : AtaIo) : ∃ command ports,
    requestIdentity channel slave io =
      .ok () { io with reads := io.reads + 4, ports, commands := io.commands ++ [command] } ∧
    AsksIdentity channel slave { io with ports } command := by
  refine ⟨_, _, rfl, rfl, fun _ => rfl, fun offset low high => ?_, ?_⟩
  · obtain rfl | rfl | rfl | rfl | rfl : offset = 1 ∨ offset = 2 ∨ offset = 3 ∨ offset = 4 ∨
      offset = 5 := by omega
    all_goals simp
  · simp

/-- A report of a device with the words that were read, or of none where there is no device. -/
def Reported (clean : List Nat → Prop) (info : AtaDeviceInfo) : Prop :=
  (∃ words, clean words ∧ info = identified words) ∨ (∀ words, ¬clean words) ∧ info = .new

theorem probeWords_reports (io : AtaIo) : ∃ info reads,
    probeWords channel io = .ok info { io with reads } ∧
      reads ≤ io.reads + (2 * pollTimeout + 256) ∧
      Reported (fun words => ∃ readyAt endAt, CleanWords io.device io.reads words readyAt endAt)
        info := by
  obtain ⟨ready, reads, polls, answer⟩ := @pollDrqFor_answers channel pollTimeout io
  have bounded := answer.bounded
  simp only [pollTimeout] at bounded
  cases ready with
  | false =>
      refine ⟨.new, reads, ?_, by simp only [pollTimeout]; omega, .inr ⟨?_, rfl⟩⟩
      · rw [probeWords, bind_apply, pollDrq, polls]
        rfl
      · rintro words ⟨readyAt, endAt, clean⟩
        exact answer.failed rfl readyAt clean.ready
  | true =>
      obtain ⟨readyAt, polled, rfl⟩ := answer.passed rfl
      obtain ⟨idle, reads, settles, settled⟩ :=
        @pollNotBusyFor_answers channel pollTimeout { io with reads := readyAt + 1 + 256 }
      have last := settled.bounded
      simp only [pollTimeout] at last
      let words := (List.range 256).map fun word => io.device (readyAt + 1 + word) % 2 ^ 16
      have ran : probeWords channel io =
          .ok (if idle then identified words else .new) { io with reads } := by
        rw [probeWords, bind_apply, pollDrq, polls]
        simp only [Bool.not_true, Bool.false_eq_true, if_false, bind_apply, receiveIdentity_eq,
          pollNotBusy, settles]
        rfl
      refine ⟨_, reads, ran, by simp only [pollTimeout]; omega, ?_⟩
      cases idle with
      | false =>
          refine .inr ⟨?_, rfl⟩
          rintro other ⟨readyAt', endAt, clean⟩
          obtain rfl := polled.unique clean.ready
          exact settled.failed rfl endAt clean.settled
      | true =>
          obtain ⟨endAt, ends, _⟩ := settled.passed rfl
          exact .inl ⟨words, ⟨readyAt, endAt, polled, rfl, ends⟩, rfl⟩

theorem probeAnswer_reports (io : AtaIo) : ∃ info reads,
    probeAnswer channel io = .ok info { io with reads } ∧
      reads ≤ io.reads + (3 * pollTimeout + 259) ∧
      Reported (Identifies io.device io.reads) info := by
  have status : channel.readReg 7 io =
    .ok (io.device io.reads % 2 ^ 8) { io with reads := io.reads + 1 } := rfl
  by_cases absent : io.device io.reads % 2 ^ 8 = 0
  · refine ⟨.new, io.reads + 1, ?_, by simp only [pollTimeout]; omega, .inr ⟨?_, rfl⟩⟩
    · simp only [probeAnswer, bind_apply, status, absent, if_true]
      rfl
    · rintro words ⟨_, _, _, clean⟩
      exact clean.answered absent
  obtain ⟨idle, reads, polls, answer⟩ :=
    @pollNotBusyFor_answers channel pollTimeout { io with reads := io.reads + 1 }
  have bounded := answer.bounded
  simp only [pollTimeout] at bounded
  cases idle with
  | false =>
      refine ⟨.new, reads, ?_, by simp only [pollTimeout]; omega, .inr ⟨?_, rfl⟩⟩
      · simp only [probeAnswer, bind_apply, status, absent, if_false, pollBsy, polls]
        rfl
      · rintro words ⟨idleAt, _, _, clean⟩
        exact answer.failed rfl idleAt clean.idle
  | true =>
      obtain ⟨idleAt, polled, rfl⟩ := answer.passed rfl
      have signature : probeAnswer channel io =
          (if io.device (idleAt + 1) % 2 ^ 8 ≠ 0 ∨ io.device (idleAt + 2) % 2 ^ 8 ≠ 0 then pure .new
            else probeWords channel : Ata AtaDeviceInfo) { io with reads := idleAt + 3 } := by
        simp only [probeAnswer, bind_apply, status, absent, if_false, pollBsy, polls]
        rfl
      by_cases foreign : io.device (idleAt + 1) % 2 ^ 8 ≠ 0 ∨ io.device (idleAt + 2) % 2 ^ 8 ≠ 0
      · refine ⟨.new, idleAt + 3, signature.trans (congrFun (if_pos foreign) _),
          by simp only [pollTimeout]; omega, .inr ⟨?_, rfl⟩⟩
        rintro words ⟨idleAt', _, _, clean⟩
        obtain rfl := polled.unique clean.idle
        exact foreign.elim (· clean.mid) (· clean.high)
      · obtain ⟨info, reads, ran, last, report⟩ := @probeWords_reports channel
          { io with reads := idleAt + 3 }
        refine ⟨info, reads, (signature.trans (congrFun (if_neg foreign) _)).trans ran, ?_, ?_⟩
        · simp only [pollTimeout] at last ⊢
          omega
        rw [not_or, not_not, not_not] at foreign
        rcases report with ⟨words, ⟨readyAt, endAt, clean⟩, found⟩ | ⟨none_there, blank⟩
        · exact .inl ⟨words, ⟨idleAt, readyAt, endAt, absent, polled, foreign.1, foreign.2, clean⟩,
            found⟩
        · refine .inr ⟨?_, blank⟩
          rintro words ⟨idleAt', readyAt, endAt, clean⟩
          obtain rfl := polled.unique clean.idle
          exact none_there words ⟨readyAt, endAt, clean.data⟩

def probeReads : Nat := 3 * pollTimeout + 263

structure Probes (channel : AtaChannel) (slave : Bool) (before : AtaIo) (info : AtaDeviceInfo)
    (after : AtaIo) : Prop where
  reported : Reported (Identifies before.device (before.reads + 4)) info
  asks : ∃ command, after.commands = before.commands ++ [command] ∧
    AsksIdentity channel slave after command
  device : after.device = before.device
  data : after.sent = before.sent ∧ after.buf = before.buf
  bounded : after.reads ≤ before.reads + probeReads

theorem probeDevice_probes (io : AtaIo) : ∃ info after,
    probeDevice channel slave io = .ok info after ∧ Probes channel slave io info after := by
  obtain ⟨command, ports, requested, asks⟩ := @requestIdentity_asks channel slave io
  obtain ⟨info, reads, answered, bounded, report⟩ := @probeAnswer_reports channel
    { io with reads := io.reads + 4, ports, commands := io.commands ++ [command] }
  refine ⟨info, { io with reads, ports, commands := io.commands ++ [command] }, ?_, report,
    ⟨command, rfl, ?_⟩, rfl, ⟨rfl, rfl⟩, ?_⟩
  · rw [probeDevice, bind_apply, requested]
    exact answered
  · exact ⟨asks.opcode, asks.registers, asks.parameters, asks.selected⟩
  · have total : io.reads + 4 + (3 * pollTimeout + 259) = io.reads + (3 * pollTimeout + 263) := by
      rw [Nat.add_assoc, Nat.add_left_comm 4]
    exact bounded.trans_eq total

end Position

section Scan

variable {device : Nat → Nat} {start : Nat} {info : AtaDeviceInfo} {words : List Nat}

def Trimmed (bytes : List Nat) : Prop := ∀ last ∈ bytes.getLast?, blank last = false

theorem extractString_trimmed (data : List Nat) (startWord endWord : Nat) :
    Trimmed (extractString data startWord endWord) := by
  intro last found
  have shown : extractString data startWord endWord ≠ [] := by
    rintro empty
    rw [empty] at found
    cases found
  rw [List.getLast?_eq_getLast_of_ne_nil shown, Option.mem_def, Option.some.injEq] at found
  have stops := List.rdropWhile_last_not blank _ shown
  rw [← found]
  exact Bool.eq_false_iff.mpr stops

/-- What a probe reports of a device, with the strings of its name. -/
structure Readable (info : AtaDeviceInfo) : Prop where
  ata : info.isAta = info.present
  model : Trimmed info.model
  serial : Trimmed info.serial
  firmware : Trimmed info.firmware

theorem Reported.readable {clean : List Nat → Prop} (report : Reported clean info) : Readable info := by
  rcases report with ⟨words, _, rfl⟩ | ⟨_, rfl⟩
  · exact ⟨rfl, extractString_trimmed _ _ _, extractString_trimmed _ _ _, extractString_trimmed _ _ _⟩
  · have empty : Trimmed [] := by simp [Trimmed]
    exact ⟨rfl, empty, empty, empty⟩

structure Scanned (before : AtaIo) (driver : AtaDriver) (ready first second third after : AtaIo) :
    Prop where
  device : ready.device = before.device
  commands : ready.commands = before.commands
  data : ready.sent = before.sent ∧ ready.buf = before.buf
  reads : ready.reads = before.reads + 16
  primaryMaster : Probes (getChannel primaryBase) false ready driver.primaryMaster first
  primarySlave : Probes (getChannel primaryBase) true first driver.primarySlave second
  secondaryMaster : Probes (getChannel secondaryBase) false second driver.secondaryMaster third
  secondarySlave : Probes (getChannel secondaryBase) true third driver.secondarySlave after

theorem softwareReset_eq (channel : AtaChannel) (io : AtaIo) : ∃ ports,
    softwareReset channel io = .ok () { io with reads := io.reads + 4 + 4, ports } := by
  simp only [softwareReset, AtaChannel.writeControl, bind_apply, delay_eq, modify_apply]
  exact ⟨_, rfl⟩

theorem scan_scanned (io : AtaIo) : ∃ driver ready first second third after,
    (∀ previous : AtaDriver, previous.scan io = .ok driver after) ∧
      Scanned io driver ready first second third after := by
  obtain ⟨ports, primary⟩ := softwareReset_eq (getChannel primaryBase) io
  obtain ⟨ports, secondary⟩ := softwareReset_eq (getChannel secondaryBase)
    { io with reads := io.reads + 4 + 4, ports }
  let ready := { io with reads := io.reads + 4 + 4 + 4 + 4, ports }
  obtain ⟨primaryMaster, first, ran, probed⟩ :=
    @probeDevice_probes (getChannel primaryBase) false ready
  obtain ⟨primarySlave, second, ranSecond, probedSecond⟩ :=
    @probeDevice_probes (getChannel primaryBase) true first
  obtain ⟨secondaryMaster, third, ranThird, probedThird⟩ :=
    @probeDevice_probes (getChannel secondaryBase) false second
  obtain ⟨secondarySlave, after, ranLast, probedLast⟩ :=
    @probeDevice_probes (getChannel secondaryBase) true third
  refine ⟨⟨.initializing, primaryMaster, primarySlave, secondaryMaster, secondarySlave⟩, ready, first,
    second, third, after, ?_, rfl, rfl, ⟨rfl, rfl⟩, rfl, probed, probedSecond, probedThird, probedLast⟩
  intro previous
  simp only [AtaDriver.scan, bind_apply, primary, secondary]
  rw [show probeDevice (getChannel primaryBase) false _ = _ from ran]
  simp only [ranSecond, ranThird, ranLast]
  rfl

/-- What a start of the driver has found and done. -/
structure Started (before : AtaIo) (driver : AtaDriver) (after : AtaIo) : Prop where
  scanned : ∃ ready first second third, Scanned before driver ready first second third after
  identifies : ∃ issued, after.commands = before.commands ++ issued ∧ issued.length = 4 ∧
    ∀ command ∈ issued, command.opcode = cmdIdentifyDrive
  untouched : after.sent = before.sent ∧ after.buf = before.buf
  bounded : after.reads ≤ before.reads + 16 + 4 * probeReads
  readable : ∀ info ∈ driver.devices, Readable info
  status : driver.status = if driver.probe then .ready else .error

variable {before after ready first second third : AtaIo} {driver : AtaDriver}

theorem Scanned.identifies (scanned : Scanned before driver ready first second third after) :
    ∃ issued, after.commands = before.commands ++ issued ∧ issued.length = 4 ∧
      ∀ command ∈ issued, command.opcode = cmdIdentifyDrive := by
  obtain ⟨primaryMaster, added, asks⟩ := scanned.primaryMaster.asks
  obtain ⟨primarySlave, addedSecond, asksSecond⟩ := scanned.primarySlave.asks
  obtain ⟨secondaryMaster, addedThird, asksThird⟩ := scanned.secondaryMaster.asks
  obtain ⟨secondarySlave, addedLast, asksLast⟩ := scanned.secondarySlave.asks
  refine ⟨[primaryMaster, primarySlave, secondaryMaster, secondarySlave], ?_, rfl, ?_⟩
  · simp [addedLast, addedThird, addedSecond, added, scanned.commands]
  · simp [asks.opcode, asksSecond.opcode, asksThird.opcode, asksLast.opcode]

theorem Scanned.untouched (scanned : Scanned before driver ready first second third after) :
    after.sent = before.sent ∧ after.buf = before.buf := by
  simp only [scanned.secondarySlave.data, scanned.secondaryMaster.data, scanned.primarySlave.data,
    scanned.primaryMaster.data, scanned.data, and_self]

theorem Scanned.bounded (scanned : Scanned before driver ready first second third after) :
    after.reads ≤ before.reads + 16 + 4 * probeReads := by
  rw [← scanned.reads]
  have within {start middle stop : Nat} (go : stop ≤ middle + probeReads) {done : Nat}
      (so_far : middle ≤ start + done * probeReads) : stop ≤ start + (done + 1) * probeReads := by
    rw [Nat.succ_mul, ← Nat.add_assoc]
    exact go.trans (Nat.add_le_add_right so_far _)
  have start : ready.reads ≤ ready.reads + 0 * probeReads := Nat.le_add_right _ _
  exact within scanned.secondarySlave.bounded (within scanned.secondaryMaster.bounded
    (within scanned.primarySlave.bounded (within scanned.primaryMaster.bounded start)))

theorem Scanned.readable (scanned : Scanned before driver ready first second third after) :
    ∀ info ∈ driver.devices, Readable info := by
  simp only [AtaDriver.devices, List.mem_cons, List.not_mem_nil, or_false, forall_eq_or_imp,
    forall_eq]
  exact ⟨scanned.primaryMaster.reported.readable, scanned.primarySlave.reported.readable,
    scanned.secondaryMaster.reported.readable, scanned.secondarySlave.reported.readable⟩

theorem Scanned.checks (scanned : Scanned before driver ready first second third after) :
    (driver.devices.any fun info => info.present && info.isAta) = driver.probe := by
  rw [AtaDriver.probe, Bool.eq_iff_iff, List.any_eq_true, List.any_eq_true]
  constructor
  · rintro ⟨info, listed, found⟩
    exact ⟨info, listed, (Bool.and_eq_true_iff.mp found).1⟩
  · rintro ⟨info, listed, found⟩
    exact ⟨info, listed, by rw [(scanned.readable info listed).ata, found]; rfl⟩

end Scan

/-- Whatever the device answers, a start of the driver ends, has issued nothing but four IDENTIFY
commands, and reports at each of the four positions the device that its answers identify, or none.
It fails exactly if there is none at all, and a reset in its place finds the same. -/
theorem init_finds_devices (installed : Option AtaDriver) (previous : AtaDriver) (io : AtaIo) :
    ∃ driver after, Started io driver after ∧ previous.reset io = .ok driver after ∧
      initAtaDriver installed io =
        .ok (if driver.probe then (.ok (), some driver) else (.error .deviceNotFound, installed))
          after := by
  obtain ⟨found, ready, first, second, third, after, ran, scanned⟩ := scan_scanned io
  have checks := scanned.checks
  let driver : AtaDriver := { found with status := if found.probe then .ready else .error }
  refine ⟨driver, after, ?_, ?_, ?_⟩
  · exact ⟨⟨ready, first, second, third, scanned.device, scanned.commands, scanned.data, scanned.reads,
      scanned.primaryMaster, scanned.primarySlave, scanned.secondaryMaster, scanned.secondarySlave⟩,
      scanned.identifies, scanned.untouched, scanned.bounded, scanned.readable, rfl⟩
  · rw [AtaDriver.reset, bind_apply, ran]
    rfl
  · have same : driver.probe = found.probe := rfl
    simp only [initAtaDriver, AtaDriver.init, bind_apply, ran, checks, same, driver]
    cases found.probe <;> rfl

end ArcadiaOs.Drivers
