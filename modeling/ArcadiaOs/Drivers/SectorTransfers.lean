import ArcadiaOs.Drivers.Attempts
import ArcadiaOs.Drivers.SectorAddressing

/-!
Whole requests.  The attempts at each sector are listed by the states they begin in; a request
that returns has ended each list with an attempt that saw clean statuses.
-/

namespace ArcadiaOs.Drivers

open Lib

def tries (channel : AtaChannel) (attempt : Ata Unit) : Nat → AtaIo → List AtaIo
  | 0, _ => []
  | attempts + 1, io =>
      io :: match attempt io with
        | .ok _ _ => []
        | .error _ failed =>
            tries channel attempt attempts (stateOf (softwareReset channel failed))

def sectorTries (channel : AtaChannel) (attempt : Nat → Ata Unit) : Nat → Nat → AtaIo →
    List (List AtaIo)
  | 0, _, _ => []
  | count + 1, sector, io =>
      tries channel (attempt sector) maxRetries { io with sector := sector } ::
        match retry channel (attempt sector) maxRetries .ioError { io with sector := sector } with
        | .ok _ done => sectorTries channel attempt count (sector + 1) done
        | .error _ _ => []

section Retries

variable {channel : AtaChannel} {attempt : Ata Unit} {area : Nat → Prop} {opcode : Nat}

theorem retry_passed {io done : AtaIo} (ran : attempt io = .ok () done) (attempts : Nat)
    (lastError : DriverError) : tries channel attempt (attempts + 1) io = [io] ∧
      retry channel attempt (attempts + 1) lastError io = .ok () done := by
  simp only [tries, retry, ran, and_self]

theorem retry_failed {io failed next : AtaIo} {reason : DriverError}
    (ran : attempt io = .error reason failed) (reset : softwareReset channel failed = .ok () next)
    (attempts : Nat) (lastError : DriverError) :
    tries channel attempt (attempts + 1) io = io :: tries channel attempt attempts next ∧
      retry channel attempt (attempts + 1) lastError io = retry channel attempt attempts reason next := by
  simp only [tries, retry, ran, reset, bind_apply, stateOf, and_self]

theorem tries_length (attempts : Nat) (io : AtaIo) :
    1 ≤ (tries channel attempt (attempts + 1) io).length ∧
      (tries channel attempt (attempts + 1) io).length ≤ attempts + 1 := by
  induction attempts generalizing io with
  | zero =>
      simp only [tries]
      split <;> simp
  | succ attempts ih =>
      rw [tries]
      split
      · simp
      · have later := ih (stateOf (softwareReset channel ‹_›))
        simp only [List.length_cons]
        omega

/-- The attempt keeps to its area, and one that returns has `passed`. -/
def Attempted (area : Nat → Prop) (opcode : Nat) (passed : AtaIo → AtaIo → Prop) (room : Nat)
    (attempt : Ata Unit) : Prop :=
  ∀ io, room ≤ io.buf.length →
    Yields (fun _ done => Touches area opcode 1 io done ∧ passed io done)
      (fun _ failed => Touches area opcode 1 io failed) (attempt io)

variable {passed : AtaIo → AtaIo → Prop} {room : Nat}

theorem Attempted.cases (attempted : Attempted area opcode passed room attempt) {io : AtaIo}
    (fits : room ≤ io.buf.length) :
    (∃ done, attempt io = .ok () done ∧ Touches area opcode 1 io done ∧ passed io done) ∨
      ∃ reason failed next, attempt io = .error reason failed ∧
        softwareReset channel failed = .ok () next ∧ Touches area opcode 1 io next := by
  have here := attempted io fits
  cases ran : attempt io with
  | ok value done =>
      rw [ran] at here
      cases here with
      | ok here => exact .inl ⟨done, rfl, here⟩
  | error reason failed =>
      rw [ran] at here
      cases here with
      | error here =>
          obtain ⟨next, reset, -, quiet⟩ := @softwareReset_yields channel area failed
          exact .inr ⟨reason, failed, next, rfl, reset, here.go_on (quiet opcode)⟩

theorem retry_yields (attempted : Attempted area opcode passed room attempt) (attempts : Nat)
    (lastError : DriverError) (io : AtaIo) (fits : room ≤ io.buf.length) :
    Yields
      (fun _ done => Touches area opcode (tries channel attempt (attempts + 1) io).length io done ∧
        ∃ begun earlier, (tries channel attempt (attempts + 1) io).getLast? = some begun ∧
          attempt begun = .ok () done ∧ passed begun done ∧ Touches area opcode earlier io begun)
      (fun reason failed =>
        Touches area opcode (tries channel attempt (attempts + 1) io).length io failed ∧
        ∃ begun stopped, (tries channel attempt (attempts + 1) io).getLast? = some begun ∧
          attempt begun = .error reason stopped)
      (retry channel attempt (attempts + 1) lastError io) := by
  induction attempts generalizing io lastError with
  | zero =>
      rcases @Attempted.cases channel _ _ _ _ _ attempted _ fits with
        ⟨done, ran, touches, ended⟩ | ⟨reason, failed, next, ran, reset, touches⟩
      · obtain ⟨listed, step⟩ := @retry_passed channel _ _ _ ran 0 lastError
        rw [listed, step]
        exact .ok ⟨touches, io, 0, rfl, ran, ended, Touches.quiet rfl rfl rfl rfl (Nat.le_refl _)⟩
      · obtain ⟨listed, step⟩ := retry_failed ran reset 0 lastError
        rw [listed, step]
        exact .error ⟨touches, io, failed, rfl, ran⟩
  | succ attempts ih =>
      rcases @Attempted.cases channel _ _ _ _ _ attempted _ fits with
        ⟨done, ran, touches, ended⟩ | ⟨reason, failed, next, ran, reset, touches⟩
      · obtain ⟨listed, step⟩ := @retry_passed channel _ _ _ ran (attempts + 1) lastError
        rw [listed, step]
        exact .ok ⟨touches, io, 0, rfl, ran, ended, Touches.quiet rfl rfl rfl rfl (Nat.le_refl _)⟩
      · obtain ⟨listed, step⟩ := retry_failed ran reset (attempts + 1) lastError
        have nonempty : tries channel attempt (attempts + 1) next ≠ [] := by simp [tries]
        rw [listed, step, List.getLast?_cons_of_ne_nil nonempty, List.length_cons, Nat.add_comm _ 1]
        refine (ih reason next (by rwa [touches.length])).mono ?_ ?_
        · rintro _ done ⟨later, begun, earlier, found, passes, ended, kept⟩
          exact ⟨touches.trans later, begun, 1 + earlier, found, passes, ended, touches.trans kept⟩
        · rintro why stopped ⟨later, found⟩
          exact ⟨touches.trans later, found⟩

end Retries

section Sectors

variable {opcode start : Nat} {io middle after : AtaIo} {trace : List (List AtaIo)}

/-- What the attempts at the sectors from `start` on have done: each sector was tried up to three
times, and nothing behind the last of them was touched. -/
structure Progress (opcode start : Nat) (io after : AtaIo) (trace : List (List AtaIo)) : Prop where
  device : after.device = io.device
  forward : io.reads ≤ after.reads
  length : after.buf.length = io.buf.length
  outside : ∀ index, index < start * sectorSize ∨ (start + trace.length) * sectorSize ≤ index →
    after.buf[index]? = io.buf[index]?
  limited : ∀ starts ∈ trace, 1 ≤ starts.length ∧ starts.length ≤ maxRetries
  issued : ∃ issued, after.commands = io.commands ++ issued ∧
    (∀ command ∈ issued, start ≤ command.sector ∧ command.sector < start + trace.length) ∧
    ∀ sector < trace.length, issued.countP (fun command =>
      command.sector = start + sector ∧ command.opcode = opcode) = (trace.getD sector []).length

theorem Progress.refl : Progress opcode start io io [] where
  device := rfl
  forward := Nat.le_refl _
  length := rfl
  outside := fun _ _ => rfl
  limited := by simp
  issued := ⟨[], by simp, by simp, by simp⟩

theorem Progress.cons {starts : List AtaIo} {area : Nat → Prop}
    (within : ∀ index, area index → InSector start index)
    (touches : Touches area opcode starts.length { io with sector := start } middle)
    (limited : 1 ≤ starts.length ∧ starts.length ≤ maxRetries)
    (later : Progress opcode (start + 1) middle after trace) :
    Progress opcode start io after (starts :: trace) where
  device := later.device.trans touches.device
  forward := Nat.le_trans touches.forward later.forward
  length := later.length.trans touches.length
  outside := by
    intro index free
    have next := sector_end start
    rw [List.length_cons, ← Nat.add_assoc, Nat.add_right_comm] at free
    have reach : (start + 1) * sectorSize ≤ (start + 1 + trace.length) * sectorSize :=
      Nat.mul_le_mul_right _ (Nat.le_add_right _ _)
    have apart : ¬area index := by
      intro inside
      obtain ⟨above, below⟩ := within index inside
      omega
    exact (later.outside index (by omega)).trans (touches.outside index apart)
  limited := by
    intro tried listed
    rcases List.mem_cons.mp listed with rfl | listed
    · exact limited
    · exact later.limited tried listed
  issued := by
    obtain ⟨earlier, commands, sectors, count⟩ := touches.issued
    obtain ⟨behind, commands', sectors', counts⟩ := later.issued
    refine ⟨earlier ++ behind, by simp [commands', commands], ?_, ?_⟩
    · intro command listed
      rw [List.length_cons]
      rcases List.mem_append.mp listed with inside | inside
      · have at_start : command.sector = start := sectors command inside
        omega
      · have := sectors' command inside
        omega
    · intro sector below
      rw [List.countP_append]
      cases sector with
      | zero =>
          have here : earlier.countP (fun command => command.sector = start + 0 ∧ command.opcode = opcode) =
              earlier.countP fun command => command.opcode = opcode := by
            apply List.countP_congr
            intro command inside
            simp [show command.sector = start from sectors command inside]
          have none_behind : behind.countP
              (fun command => command.sector = start + 0 ∧ command.opcode = opcode) = 0 := by
            rw [List.countP_eq_zero]
            intro command inside
            have := sectors' command inside
            simp only [decide_eq_true_eq]
            omega
          rw [here, none_behind, count]
          rfl
      | succ sector =>
          have none_earlier : earlier.countP
              (fun command => command.sector = start + (sector + 1) ∧ command.opcode = opcode) = 0 := by
            rw [List.countP_eq_zero]
            intro command inside
            have at_start : command.sector = start := sectors command inside
            simp only [decide_eq_true_eq]
            omega
          have rest := counts sector (by simpa using below)
          rw [Nat.add_assoc, Nat.add_comm 1] at rest
          rw [none_earlier, Nat.zero_add, rest]
          rfl

variable {channel : AtaChannel} {attempt : Nat → Ata Unit} {area : Nat → Nat → Prop}
  {passed : Nat → AtaIo → AtaIo → Prop}

/-- The last attempt at a sector passed, and what it left of the sector in the buffer is there
at the end. -/
def EndedBy (attempt : Ata Unit) (area : Nat → Nat → Prop) (passed : AtaIo → AtaIo → Prop)
    (sector : Nat) (io done : AtaIo) (starts : List AtaIo) : Prop :=
  ∃ begun ended, starts.getLast? = some begun ∧ attempt begun = .ok () ended ∧ passed begun ended ∧
    begun.device = io.device ∧ io.reads ≤ begun.reads ∧ ended.reads ≤ done.reads ∧
    (∀ index, (∀ other, ¬area other index) → begun.buf[index]? = io.buf[index]?) ∧
    ∀ index, InSector sector index → done.buf[index]? = ended.buf[index]?

theorem sectorsFrom_yields (within : ∀ sector index, area sector index → InSector sector index)
    (attempted : ∀ sector, Attempted (area sector) opcode (passed sector)
      ((sector + 1) * sectorSize) (attempt sector))
    (count start : Nat) (io : AtaIo) (room : (start + count) * sectorSize ≤ io.buf.length) :
    Yields
      (fun _ done => Progress opcode start io done (sectorTries channel attempt count start io) ∧
        (sectorTries channel attempt count start io).length = count ∧
        ∀ sector < count, EndedBy (attempt (start + sector)) area (passed (start + sector))
          (start + sector) io done ((sectorTries channel attempt count start io).getD sector []))
      (fun reason failed =>
        Progress opcode start io failed (sectorTries channel attempt count start io) ∧
        ∃ last < count, (sectorTries channel attempt count start io).length = last + 1 ∧
          ∃ begun stopped,
            ((sectorTries channel attempt count start io).getD last []).getLast? = some begun ∧
            attempt (start + last) begun = .error reason stopped)
      (sectorsFrom channel attempt count start io) := by
  induction count generalizing start io with
  | zero => exact .ok ⟨Progress.refl, rfl, by simp⟩
  | succ count ih =>
      let entered : AtaIo := { io with sector := start }
      have span : (start + 1) * sectorSize ≤ (start + (count + 1)) * sectorSize :=
        Nat.mul_le_mul_right _ (by omega)
      have limited := @tries_length channel (attempt start) 2 entered
      have here := @retry_yields channel _ _ _ _ _ (attempted start) 2 .ioError entered
        (Nat.le_trans span room)
      rw [sectorsFrom_succ, bind_apply]
      cases ran : retry channel (attempt start) maxRetries .ioError entered with
      | error reason failed =>
          have listed : sectorTries channel attempt (count + 1) start io =
              [tries channel (attempt start) maxRetries entered] := by
            simp only [sectorTries, entered] at ran ⊢
            rw [ran]
          rw [listed]
          rw [show retry channel (attempt start) (2 + 1) .ioError entered = _ from ran] at here
          cases here with
          | error here =>
              obtain ⟨touches, begun, stopped, found, last⟩ := here
              exact .error ⟨Progress.cons (within start) touches limited Progress.refl,
                0, by omega, rfl, begun, stopped, found, last⟩
      | ok value middle =>
          have listed : sectorTries channel attempt (count + 1) start io =
              tries channel (attempt start) maxRetries entered ::
                sectorTries channel attempt count (start + 1) middle := by
            simp only [sectorTries, entered] at ran ⊢
            rw [ran]
          rw [listed]
          rw [show retry channel (attempt start) (2 + 1) .ioError entered = _ from ran] at here
          cases here with
          | ok here =>
              obtain ⟨touches, begun, earlier, found, ended, passes, kept⟩ := here
              have rest := ih (start + 1) middle (by
                rw [touches.length, Nat.add_assoc, Nat.add_comm 1]
                exact room)
              -- the sectors behind the first write to their own part of the buffer only
              refine rest.mono ?_ ?_
              · rintro _ done ⟨progress, all, passed_all⟩
                refine ⟨Progress.cons (within start) touches limited progress, by simp [all], ?_⟩
                intro sector below
                cases sector with
                | zero =>
                    refine ⟨begun, middle, found, ended, passes, kept.device, kept.forward,
                      progress.forward, ?_, ?_⟩
                    · exact fun index never => kept.outside index (never start)
                    · exact fun index inside => progress.outside index (.inl inside.2)
                | succ sector =>
                    have later := passed_all sector (by omega)
                    rw [Nat.add_assoc, Nat.add_comm 1] at later
                    obtain ⟨begun, last, found, ended, passes, device, after, before, untouched, final⟩ :=
                      later
                    refine ⟨begun, last, found, ended, passes, device.trans touches.device,
                      Nat.le_trans touches.forward after, before, ?_, final⟩
                    exact fun index never =>
                      (untouched index never).trans (touches.outside index (never start))
              · rintro reason failed ⟨progress, last, below, all, begun, stopped, found, ended⟩
                refine ⟨Progress.cons (within start) touches limited progress, last + 1, by omega,
                  by simp [all], begun, stopped, found, ?_⟩
                rw [← ended, Nat.add_assoc, Nat.add_comm 1]

end Sectors

section Requests

variable {attempts : AtaChannel → Nat → Nat → Ata Unit} {base lba count opcode : Nat} {io : AtaIo}

def requestTries (attempts : AtaChannel → Nat → Nat → Ata Unit) (base lba count : Nat) (io : AtaIo) :
    List (List AtaIo) :=
  sectorTries (getChannel base)
    (fun sector => attempts (getChannel base) (lba + sector) sector) count 0 io

/-- A request fails because its buffer is too short, with nothing done, or with the error of the
last attempt at the last sector it has touched. -/
def StoppedBy (attempts : AtaChannel → Nat → Nat → Ata Unit) (base lba count opcode : Nat)
    (io : AtaIo) (reason : DriverError) (failed : AtaIo) : Prop :=
  (reason = .bufferTooSmall ∧ io.buf.length < count * sectorSize ∧ failed = io) ∨
    Progress opcode 0 io failed (requestTries attempts base lba count io) ∧
    ∃ last < count, (requestTries attempts base lba count io).length = last + 1 ∧
      ∃ begun stopped,
        ((requestTries attempts base lba count io).getD last []).getLast? = some begun ∧
        attempts (getChannel base) (lba + last) last begun = .error reason stopped

def PassedBy (attempts : AtaChannel → Nat → Nat → Ata Unit) (base lba count opcode : Nat)
    (io : AtaIo) (passed : Nat → AtaIo → AtaIo → Prop) (done : AtaIo) : Prop :=
  Progress opcode 0 io done (requestTries attempts base lba count io) ∧
    (requestTries attempts base lba count io).length = count ∧
    ∀ sector < count, ∃ begun ended,
      ((requestTries attempts base lba count io).getD sector []).getLast? = some begun ∧
      attempts (getChannel base) (lba + sector) sector begun = .ok () ended ∧
      passed sector begun ended

theorem transferSectors_yields {area : Nat → Nat → Prop} {passed : Nat → AtaIo → AtaIo → Prop}
    (within : ∀ sector index, area sector index → InSector sector index)
    (attempted : ∀ sector, Attempted (area sector) opcode (passed sector)
      ((sector + 1) * sectorSize) (attempts (getChannel base) (lba + sector) sector))
    (representable : lba + (count - 1) < 2 ^ 32) :
    Yields
      (fun _ done => PassedBy attempts base lba count opcode io (fun sector begun ended =>
        passed sector begun ended ∧ begun.device = io.device ∧ io.reads ≤ begun.reads ∧
        ended.reads ≤ done.reads ∧
        (∀ index, (∀ other, ¬area other index) → begun.buf[index]? = io.buf[index]?) ∧
        ∀ index, InSector sector index → done.buf[index]? = ended.buf[index]?) done)
      (StoppedBy attempts base lba count opcode io)
      (transferSectors attempts base lba count io) := by
  rw [transferSectors_cases]
  split
  next short => exact .error (.inl ⟨rfl, short, rfl⟩)
  next room =>
    rw [if_neg (by omega)]
    have run := @sectorsFrom_yields _ (getChannel base) _ _ _ within attempted count 0 io
      (by rw [Nat.zero_add]; exact Nat.not_lt.mp room)
    refine run.mono ?_ ?_
    · rintro _ done ⟨progress, all, ended⟩
      refine ⟨progress, all, fun sector below => ?_⟩
      have here := ended sector below
      rw [Nat.zero_add] at here
      obtain ⟨begun, last, found, ran, passes⟩ := here
      exact ⟨begun, last, found, ran, passes⟩
    · rintro reason failed ⟨progress, last, below, all, begun, stopped, found, ran⟩
      rw [Nat.zero_add] at ran
      exact .inr ⟨progress, last, below, all, begun, stopped, found, ran⟩

end Requests

/-! A device that is ready at every poll. -/

section Ready

variable {channel : AtaChannel} {io : AtaIo} (ready : io.device = fun _ => statusDrq)
include ready

theorem readReg_ready (offset : Nat) :
    channel.readReg offset io = .ok statusDrq { io with reads := io.reads + 1 } := by
  have status : channel.readReg offset io =
      .ok (io.device io.reads % 2 ^ 8) { io with reads := io.reads + 1 } := rfl
  rw [status, ready]
  rfl

theorem pollDrq_ready : pollDrq channel io = .ok () { io with reads := io.reads + 1 } := by
  rw [pollDrq, pollTimeout, pollDrqFor, bind_apply, readReg_ready ready]
  rfl

theorem pollNotBusy_ready : pollNotBusy channel io = .ok () { io with reads := io.reads + 1 } := by
  rw [pollNotBusy, pollTimeout, pollNotBusyFor, bind_apply, readReg_ready ready]
  rfl

theorem checkStatus_ready : checkStatus channel io = .ok () { io with reads := io.reads + 1 } := by
  rw [checkStatus, bind_apply, readReg_ready ready]
  rfl

variable {slave : Bool} {lba sector : Nat} (room : (sector + 1) * sectorSize ≤ io.buf.length)
include room

theorem readAttempt_ready : ∃ done, readAttempt channel slave lba sector io = .ok () done := by
  obtain ⟨begun, ran, -, -, buf, touches⟩ :=
    @programSector_yields channel (InSector sector) slave lba cmdReadSectors io
  have ready' : begun.device = _ := touches.device.trans ready
  obtain ⟨stored, received, -⟩ := @receiveWords_yields channel (sector * sectorSize) 256 0
    { begun with reads := begun.reads + 1 } (by simp only [buf]; rw [sector_end] at room; omega)
  have filled : ({ begun with reads := begun.reads + 1 + 256, buf := stored } : AtaIo).device =
      fun _ => statusDrq := ready'
  rw [readAttempt, bind_apply, ran]
  simp only
  rw [bind_apply, pollDrq_ready ready']
  simp only
  rw [bind_apply, received]
  simp only
  rw [bind_apply, pollNotBusy_ready filled]
  simp only
  rw [checkStatus_ready (by exact filled)]
  exact ⟨_, rfl⟩

end Ready

theorem transferSectors_first {attempt : AtaChannel → Nat → Nat → Ata Unit} {base : Nat}
    (passes : ∃ done, attempt (getChannel base) 0 0 readyIo = .ok () done) :
    ∃ done, transferSectors attempt base 0 1 readyIo = .ok () done := by
  obtain ⟨done, ran⟩ := passes
  have room := Nat.not_lt.mpr readyIo_room
  have passed := (@retry_passed (getChannel base) (attempt (getChannel base) 0 0) readyIo done ran
    (maxRetries - 1) .ioError).2
  refine ⟨done, ?_⟩
  rw [transferSectors_cases, if_neg room, if_neg (by decide), sectorsFrom_succ]
  exact Lib.bind_ok.mpr ⟨(), done, passed, rfl⟩

end ArcadiaOs.Drivers
