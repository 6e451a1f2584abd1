import ArcadiaOs.Drivers.AtaCore

/-!
Which sector the commands of a disk request address.  The task file carries 28 bits of the
sector number, and the request is checked for 32.
-/

namespace ArcadiaOs.Drivers

open Lib

/-- The sector number that a register file addresses. -/
def lba28 (register : Nat → Nat) : Nat :=
  register 3 + register 4 * 2 ^ 8 + register 5 * 2 ^ 16 + register 6 % 2 ^ 4 * 2 ^ 24

def Rejected (result : EStateM.Result DriverError AtaIo Unit) : Prop :=
  ∃ reason io, result = .error reason io ∧ io.commands = []

/-- Each command addresses the sector of the request that it is issued for, and a request with a
sector beyond the 28 bits is rejected. -/
structure AddressesSectors (lba count : Nat) (result : EStateM.Result DriverError AtaIo Unit) :
    Prop where
  exact : ∀ command ∈ (stateOf result).commands,
    command.sector < count ∧ lba28 command.register = lba + command.sector
  rejects : ∀ sector < count, 2 ^ 28 ≤ lba + sector → Rejected result

section Registers

theorem masked_bytes (lba drive : Nat) (no_head : drive % 2 ^ 4 = 0) :
    (lba &&& 0xFF) + ((lba >>> 8) &&& 0xFF) * 2 ^ 8 + ((lba >>> 16) &&& 0xFF) * 2 ^ 16 +
      (0xE0 ||| drive ||| ((lba >>> 24) &&& 0x0F)) % 2 ^ 4 * 2 ^ 24 = lba % 2 ^ 28 := by
  have byte (value : Nat) : value &&& 0xFF = value % 2 ^ 8 := Nat.and_two_pow_sub_one_eq_mod value 8
  have nibble (value : Nat) : value &&& 0x0F = value % 2 ^ 4 :=
    Nat.and_two_pow_sub_one_eq_mod value 4
  have no_bits : 0xE0 % 2 ^ 4 = 0 := by decide
  rw [byte, byte, byte, nibble, Nat.or_mod_two_pow, Nat.or_mod_two_pow, no_head, no_bits]
  simp only [Nat.zero_or, Nat.shiftRight_eq_div_pow]
  omega

variable (channel : AtaChannel)

def AtaChannel.register (io : AtaIo) (offset : Nat) : Nat := io.ports (channel.basePort + offset)

def AtaChannel.Holds (sectorLba : Nat) (io : AtaIo) : Prop :=
  lba28 (channel.register io) = sectorLba % 2 ^ 28

/-- The commands issued since are for the current sector and address `sectorLba`. -/
structure Issues (sectorLba : Nat) (before after : AtaIo) : Prop where
  sector : after.sector = before.sector
  kept : ∀ command ∈ before.commands, command ∈ after.commands
  issued : ∀ command ∈ after.commands, command ∈ before.commands ∨
    command.sector = before.sector ∧ lba28 command.register = sectorLba % 2 ^ 28

variable {channel} {sectorLba : Nat} {before middle after io : AtaIo}

theorem Issues.refl : Issues sectorLba io io where
  sector := rfl
  kept := fun _ listed => listed
  issued := fun _ listed => .inl listed

theorem Issues.trans (first : Issues sectorLba before middle) (next : Issues sectorLba middle after) :
    Issues sectorLba before after where
  sector := next.sector.trans first.sector
  kept := fun command listed => next.kept command (first.kept command listed)
  issued := by
    intro command listed
    rcases next.issued command listed with listed_before | ⟨at_sector, addressed⟩
    · exact first.issued command listed_before
    · exact .inr ⟨at_sector.trans first.sector, addressed⟩

theorem Issues.append {command : Command} (at_sector : command.sector = before.sector)
    (addressed : lba28 command.register = sectorLba % 2 ^ 28) (sector : after.sector = before.sector)
    (commands : after.commands = before.commands ++ [command]) : Issues sectorLba before after where
  sector := sector
  kept := by
    intro earlier listed
    rw [commands]
    exact List.mem_append_left _ listed
  issued := by
    intro added listed
    rw [commands] at listed
    rcases List.mem_append.mp listed with listed_before | last
    · exact .inl listed_before
    · rw [List.mem_singleton.mp last]
      exact .inr ⟨at_sector, addressed⟩

variable (channel sectorLba) in
def Keeps (before after : AtaIo) : Prop :=
  channel.Holds sectorLba before → channel.Holds sectorLba after ∧ Issues sectorLba before after

theorem Keeps.refl (io : AtaIo) : Keeps channel sectorLba io io := fun held => ⟨held, Issues.refl⟩

theorem Keeps.trans (before middle after : AtaIo) (first : Keeps channel sectorLba before middle)
    (next : Keeps channel sectorLba middle after) : Keeps channel sectorLba before after := by
  intro held
  obtain ⟨held_middle, issued⟩ := first held
  obtain ⟨held_after, issued_after⟩ := next held_middle
  exact ⟨held_after, issued.trans issued_after⟩

theorem Keeps.quiet (ports : after.ports = before.ports) (commands : after.commands = before.commands)
    (sector : after.sector = before.sector) :
    Keeps channel sectorLba before after := by
  intro held
  have same : channel.register after = channel.register before := by
    funext offset
    rw [AtaChannel.register, ports, AtaChannel.register]
  refine ⟨?_, sector, fun command listed => ?_, fun command listed => .inl ?_⟩
  · rw [AtaChannel.Holds, same]
    exact held
  · rw [commands]
    exact listed
  · rw [← commands]
    exact listed

end Registers

section Attempts

variable {channel : AtaChannel} {slave : Bool} {sectorLba opcode : Nat}

theorem programSector_issues (io : AtaIo) : ∃ after,
    programSector channel slave sectorLba opcode io = .ok () after ∧ channel.Holds sectorLba after ∧
      Issues sectorLba io after ∧ after.commands ≠ [] := by
  have no_head : (if slave then 0x10 else 0x00) % 2 ^ 4 = 0 := by cases slave <;> decide
  have addressed := masked_bytes sectorLba _ no_head
  refine ⟨_, rfl, ?_, Issues.append rfl ?_ rfl rfl, List.append_ne_nil_of_right_ne_nil _ (by simp)⟩
  · unfold AtaChannel.Holds
    rw [← addressed]
    simp [lba28, AtaChannel.register]
  · rw [← addressed]
    simp [lba28]

section Quiet

variable {α β : Type}

theorem keeps_bind {first : Ata α} {next : α → Ata β} (moves : Along (Keeps channel sectorLba) first)
    (goes : ∀ value, Along (Keeps channel sectorLba) (next value)) :
    Along (Keeps channel sectorLba) (first >>= next) := Along.bind Keeps.trans moves goes

theorem keeps_pure (value : α) : Along (Keeps channel sectorLba) (pure value : Ata α) :=
  Along.pure Keeps.refl value

theorem keeps_throw (reason : DriverError) :
    Along (Keeps channel sectorLba) (throw reason : Ata α) := Along.throw Keeps.refl reason

theorem readPort_keeps (port : Nat) : Along (Keeps channel sectorLba) (readPort port) :=
  fun _ => Keeps.quiet rfl rfl rfl

theorem readReg_keeps (offset : Nat) : Along (Keeps channel sectorLba) (channel.readReg offset) :=
  keeps_bind (readPort_keeps _) fun _ => keeps_pure _

theorem pollDrqFor_keeps (turns : Nat) : Along (Keeps channel sectorLba) (pollDrqFor channel turns) := by
  induction turns with
  | zero => exact keeps_throw _
  | succ turns ih =>
      apply keeps_bind (readReg_keeps 7)
      intro status
      split
      · exact keeps_pure ()
      · split
        · exact keeps_throw _
        · exact ih

theorem pollNotBusyFor_keeps (turns : Nat) :
    Along (Keeps channel sectorLba) (pollNotBusyFor channel turns) := by
  induction turns with
  | zero => exact keeps_throw _
  | succ turns ih =>
      apply keeps_bind (readReg_keeps 7)
      intro status
      split
      · exact keeps_pure ()
      · exact ih

theorem checkStatus_keeps : Along (Keeps channel sectorLba) (checkStatus channel) := by
  apply keeps_bind (readReg_keeps 7)
  intro status
  split
  · exact keeps_throw _
  · exact keeps_pure ()

theorem receiveWords_keeps (bufOffset count index : Nat) :
    Along (Keeps channel sectorLba) (receiveWords channel bufOffset count index) := by
  induction count generalizing index with
  | zero => exact keeps_pure ()
  | succ count ih =>
      apply keeps_bind (keeps_bind (readPort_keeps _) fun _ => keeps_pure _)
      intro word
      refine keeps_bind (Along.modify fun io => ?_) fun _ => ih (index + 1)
      split
      · exact Keeps.quiet rfl rfl rfl
      · exact Keeps.refl io

theorem sendWords_keeps (bufOffset count index : Nat) :
    Along (Keeps channel sectorLba) (sendWords channel bufOffset count index) := by
  induction count generalizing index with
  | zero => exact keeps_pure ()
  | succ count ih =>
      apply keeps_bind (fun io => Keeps.refl io)
      intro io
      exact keeps_bind (Along.modify fun io => Keeps.quiet rfl rfl rfl) fun _ => ih (index + 1)

theorem flush_keeps : Along (Keeps channel sectorLba) (channel.writeReg 7 cmdFlushCache) := by
  apply Along.modify
  intro io held
  constructor
  · rw [AtaChannel.Holds, ← held]
    simp [lba28, AtaChannel.register]
  · refine Issues.append rfl ?_ rfl rfl
    rw [← held]
    simp [lba28, AtaChannel.register]

end Quiet

def Attempts (sectorLba : Nat) (attempt : Ata Unit) : Prop :=
  ∀ io, Issues sectorLba io (stateOf (attempt io)) ∧ (stateOf (attempt io)).commands ≠ []

theorem attempts_of_keeps {rest : Unit → Ata Unit} (keeps : ∀ value, Along (Keeps channel sectorLba) (rest value)) :
    Attempts sectorLba (programSector channel slave sectorLba opcode >>= rest) := by
  intro io
  obtain ⟨programmed, ran, held, issued, some_command⟩ :=
    @programSector_issues channel slave sectorLba opcode io
  have later := Along.after (Keeps channel sectorLba) ran (keeps ()) held
  refine ⟨issued.trans later.2, ?_⟩
  intro none_left
  obtain ⟨command, listed⟩ := List.exists_mem_of_ne_nil _ some_command
  have still := later.2.kept command listed
  rw [none_left] at still
  exact List.not_mem_nil still

theorem readAttempt_attempts (slave : Bool) (sectorLba sectorOffset : Nat) :
    Attempts sectorLba (readAttempt channel slave sectorLba sectorOffset) := by
  apply attempts_of_keeps
  intro _
  apply keeps_bind (pollDrqFor_keeps _)
  intro _
  apply keeps_bind (receiveWords_keeps _ _ _)
  intro _
  exact keeps_bind (pollNotBusyFor_keeps _) fun _ => checkStatus_keeps

theorem writeAttempt_attempts (slave : Bool) (sectorLba sectorOffset : Nat) :
    Attempts sectorLba (writeAttempt channel slave sectorLba sectorOffset) := by
  apply attempts_of_keeps
  intro _
  apply keeps_bind (pollDrqFor_keeps _)
  intro _
  apply keeps_bind (sendWords_keeps _ _ _)
  intro _
  apply keeps_bind (pollNotBusyFor_keeps _)
  intro _
  apply keeps_bind checkStatus_keeps
  intro _
  apply keeps_bind flush_keeps
  intro _
  exact keeps_bind (pollNotBusyFor_keeps _) fun _ => checkStatus_keeps

theorem issues_bind {α β : Type} {first : Ata α} {next : α → Ata β}
    (moves : Along (Issues sectorLba) first) (goes : ∀ value, Along (Issues sectorLba) (next value)) :
    Along (Issues sectorLba) (first >>= next) :=
  Along.bind (fun _ _ _ earlier later => earlier.trans later) moves goes

theorem Issues.quiet {before after : AtaIo} (commands : after.commands = before.commands)
    (sector : after.sector = before.sector) :
    Issues sectorLba before after where
  sector := sector
  kept := by
    intro command listed
    rw [commands]
    exact listed
  issued := by
    intro command listed
    rw [commands] at listed
    exact .inl listed

theorem delay_issues (count : Nat) : Along (Issues sectorLba) (delay channel count) := by
  induction count with
  | zero => exact fun _ => Issues.refl
  | succ count ih =>
      apply issues_bind
      · exact fun _ => Issues.quiet rfl rfl
      · exact fun _ => ih

theorem writeControl_issues (value : Nat) : Along (Issues sectorLba) (channel.writeControl value) :=
  Along.modify fun _ => Issues.quiet rfl rfl

theorem softwareReset_issues : Along (Issues sectorLba) (softwareReset channel) := by
  apply issues_bind (writeControl_issues _)
  intro _
  apply issues_bind (delay_issues 4)
  intro _
  exact issues_bind (writeControl_issues _) fun _ => delay_issues 4

theorem retry_issues {attempt : Ata Unit} (attempted : Attempts sectorLba attempt) (attempts : Nat)
    (lastError : DriverError) : Along (Issues sectorLba) (retry channel attempt attempts lastError) := by
  induction attempts generalizing lastError with
  | zero => exact fun _ => Issues.refl
  | succ attempts ih =>
      intro io
      have first := (attempted io).1
      simp only [retry]
      cases ran : attempt io with
      | ok value done =>
          rw [ran] at first
          exact first
      | error reason failed =>
          rw [ran] at first
          exact first.trans (issues_bind softwareReset_issues (fun _ => ih reason) failed)

theorem retry_attempts {attempt : Ata Unit} (attempted : Attempts sectorLba attempt) (attempts : Nat)
    (lastError : DriverError) : Attempts sectorLba (retry channel attempt (attempts + 1) lastError) := by
  intro io
  refine ⟨retry_issues attempted _ lastError io, ?_⟩
  have first := (attempted io).2
  simp only [retry]
  cases ran : attempt io with
  | ok value done =>
      rw [ran] at first
      exact first
  | error reason failed =>
      rw [ran] at first
      obtain ⟨command, listed⟩ := List.exists_mem_of_ne_nil _ first
      have again : Issues sectorLba failed (stateOf ((do
          softwareReset channel
          retry channel attempt attempts reason : Ata Unit) failed)) :=
        issues_bind softwareReset_issues (fun _ => retry_issues attempted attempts reason) failed
      exact List.ne_nil_of_mem (again.kept command listed)

end Attempts

section Requests

variable {channel : AtaChannel} {attempt : Nat → Ata Unit} {lba : Nat}

/-- From one sector of a request on, each new command addresses the low 28 bits of its sector. -/
structure Transfers (lba start count : Nat) (before after : AtaIo) : Prop where
  kept : ∀ command ∈ before.commands, command ∈ after.commands
  issued : ∀ command ∈ after.commands, command ∈ before.commands ∨
    start ≤ command.sector ∧ command.sector < start + count ∧
      lba28 command.register = (lba + command.sector) % 2 ^ 28

variable {start count : Nat} {before middle after io : AtaIo}

theorem Transfers.refl : Transfers lba start count io io where
  kept := fun _ listed => listed
  issued := fun _ listed => .inl listed

theorem Issues.transfers (at_start : before.sector = start) (issued : Issues (lba + start) before after) :
    Transfers lba start (count + 1) before after where
  kept := issued.kept
  issued := by
    intro command listed
    rcases issued.issued command listed with listed_before | ⟨at_sector, addressed⟩
    · exact .inl listed_before
    · rw [at_start] at at_sector
      refine .inr ⟨by omega, by omega, ?_⟩
      rw [at_sector]
      exact addressed

theorem Issues.transfers_then (at_start : before.sector = start)
    (issued : Issues (lba + start) before middle) (later : Transfers lba (start + 1) count middle after) :
    Transfers lba start (count + 1) before after where
  kept := fun command listed => later.kept command (issued.kept command listed)
  issued := by
    intro command listed
    rcases later.issued command listed with listed_middle | ⟨above, below, addressed⟩
    · exact (issued.transfers at_start).issued command listed_middle
    · exact .inr ⟨by omega, by omega, addressed⟩

theorem sectorsFrom_succ (count start : Nat) (io : AtaIo) :
    sectorsFrom channel attempt (count + 1) start io =
      (retry channel (attempt start) maxRetries .ioError >>= fun _ =>
        sectorsFrom channel attempt count (start + 1)) { io with sector := start } := rfl

theorem sectorsFrom_transfers
    (attempted : ∀ sectorOffset, Attempts (lba + sectorOffset) (attempt sectorOffset))
    (count start : Nat) (io : AtaIo) :
    Transfers lba start count io (stateOf (sectorsFrom channel attempt count start io)) := by
  induction count generalizing start io with
  | zero => exact Transfers.refl
  | succ count ih =>
      let begun : AtaIo := { io with sector := start }
      have here : Issues (lba + start) begun
          (stateOf (retry channel (attempt start) maxRetries .ioError begun)) :=
        retry_issues (attempted start) maxRetries .ioError begun
      have transfers : Transfers lba start (count + 1) begun
          (stateOf (sectorsFrom channel attempt (count + 1) start io)) := by
        rw [sectorsFrom_succ, bind_apply]
        cases ran : retry channel (attempt start) maxRetries .ioError begun with
        | ok value done =>
            rw [ran] at here
            exact here.transfers_then rfl (ih (start + 1) done)
        | error reason failed =>
            rw [ran] at here
            exact here.transfers rfl
      exact ⟨transfers.kept, transfers.issued⟩

theorem sectorsFrom_commands
    (attempted : ∀ sectorOffset, Attempts (lba + sectorOffset) (attempt sectorOffset))
    (count start : Nat) (io : AtaIo) :
    (stateOf (sectorsFrom channel attempt (count + 1) start io)).commands ≠ [] := by
  have here : (stateOf (retry channel (attempt start) maxRetries .ioError
      { io with sector := start })).commands ≠ [] :=
    (retry_attempts (attempted start) 2 .ioError { io with sector := start }).2
  rw [sectorsFrom_succ, bind_apply]
  cases ran : retry channel (attempt start) maxRetries .ioError { io with sector := start } with
  | ok value done =>
      rw [ran] at here
      obtain ⟨command, listed⟩ := List.exists_mem_of_ne_nil _ here
      exact List.ne_nil_of_mem
        ((sectorsFrom_transfers attempted count (start + 1) done).kept command listed)
  | error reason failed =>
      rw [ran] at here
      exact here

variable {attempts : AtaChannel → Nat → Nat → Ata Unit} {base : Nat}

theorem transferSectors_cases (io : AtaIo) : transferSectors attempts base lba count io =
    if io.buf.length < count * sectorSize then .error .bufferTooSmall io
    else if count > 0 ∧ lba + (count - 1) ≥ 2 ^ 32 then .error .invalidParam io
    else sectorsFrom (getChannel base) (fun sectorOffset =>
      attempts (getChannel base) (lba + sectorOffset) sectorOffset) count 0 io := by
  change (if io.buf.length < count * sectorSize then throw .bufferTooSmall
    else if count > 0 ∧ lba + (count - 1) ≥ 2 ^ 32 then throw .invalidParam
    else sectorsFrom (getChannel base) (fun sectorOffset =>
      attempts (getChannel base) (lba + sectorOffset) sectorOffset) count 0 : Ata Unit) io = _
  split
  · rfl
  · split
    · rfl
    · rfl

section Transfer

variable (attempted : ∀ channel sectorLba sectorOffset,
  Attempts sectorLba (attempts channel sectorLba sectorOffset))
include attempted

theorem transferSectors_transfers (lba count : Nat) (io : AtaIo) :
    Transfers lba 0 count io (stateOf (transferSectors attempts base lba count io)) := by
  rw [transferSectors_cases]
  split
  · exact Transfers.refl
  · split
    · exact Transfers.refl
    · exact sectorsFrom_transfers (fun _ => attempted _ _ _) count 0 io

theorem transferSectors_commands (room : count * sectorSize ≤ io.buf.length) (positive : 0 < count)
    (in_range : lba + count ≤ 2 ^ 32) :
    (stateOf (transferSectors attempts base lba count io)).commands ≠ [] := by
  obtain ⟨more, rfl⟩ := Nat.exists_eq_succ_of_ne_zero (Nat.ne_of_gt positive)
  rw [transferSectors_cases, if_neg (Nat.not_lt.mpr room), if_neg (by omega)]
  have each : ∀ sectorOffset, Attempts (lba + sectorOffset)
      (attempts (getChannel base) (lba + sectorOffset) sectorOffset) := fun _ => attempted _ _ _
  exact sectorsFrom_commands each more 0 io

/-- The check before the loop catches sums beyond 32 bits only. -/
theorem transferSectors_addresses (fresh : io.commands = [])
    (room : count * sectorSize ≤ io.buf.length) :
    AddressesSectors lba count (transferSectors attempts base lba count io) ↔
      count = 0 ∨ lba + count ≤ 2 ^ 28 ∨ 2 ^ 32 < lba + count := by
  have transfers : Transfers lba 0 count io (stateOf (transferSectors attempts base lba count io)) :=
    transferSectors_transfers attempted lba count io
  constructor
  · intro addresses
    by_contra outside
    simp only [not_or, Nat.not_le, Nat.not_lt] at outside
    obtain ⟨some_sector, high, in_range⟩ := outside
    -- The last sector is beyond the task file, and the first one has issued a command by then.
    obtain ⟨reason, failed, ran, none_issued⟩ :=
      addresses.rejects (count - 1) (by omega) (by omega)
    have some_issued : (stateOf (transferSectors attempts base lba count io)).commands ≠ [] :=
      transferSectors_commands attempted room (by omega) in_range
    rw [ran] at some_issued
    exact some_issued none_issued
  · intro within
    constructor
    · intro command listed
      rcases transfers.issued command listed with listed_before | ⟨-, below, addressed⟩
      · rw [fresh] at listed_before
        exact absurd listed_before List.not_mem_nil
      · rw [Nat.zero_add] at below
        by_cases beyond : lba + (count - 1) ≥ 2 ^ 32
        · rw [transferSectors_cases, if_neg (Nat.not_lt.mpr room), if_pos ⟨by omega, beyond⟩] at listed
          rw [stateOf, fresh] at listed
          exact absurd listed List.not_mem_nil
        · refine ⟨below, ?_⟩
          rw [addressed]
          apply Nat.mod_eq_of_lt
          omega
    · intro sector below high
      rw [transferSectors_cases, if_neg (Nat.not_lt.mpr room), if_pos (by omega)]
      exact ⟨_, _, rfl, fresh⟩

end Transfer

/-- Disk requests address the sectors asked for unless they reach past the 28 bits of the task file
within the 32 bits that are checked. -/
theorem requests_address_iff (base : Nat) (slave : Bool) (lba count : Nat) (io : AtaIo)
    (fresh : io.commands = []) (room : count * sectorSize ≤ io.buf.length) :
    (AddressesSectors lba count (readSectors base slave lba count io) ∧
      AddressesSectors lba count (writeSectors base slave lba count io)) ↔
      count = 0 ∨ lba + count ≤ 2 ^ 28 ∨ 2 ^ 32 < lba + count := by
  have reads := fun channel => @readAttempt_attempts channel slave
  have writes := fun channel => @writeAttempt_attempts channel slave
  rw [readSectors, writeSectors, transferSectors_addresses reads fresh room,
    transferSectors_addresses writes fresh room, and_self]

def readyIo : AtaIo where
  device := fun _ => statusDrq
  reads := 0
  ports := fun _ => 0
  sector := 0
  commands := []
  sent := []
  buf := List.replicate sectorSize 0

theorem readyIo_room : 1 * sectorSize ≤ readyIo.buf.length := by
  have length : readyIo.buf.length = sectorSize := List.length_replicate
  exact Nat.le_of_eq ((Nat.one_mul _).trans length.symm)

theorem requests_address_first :
    AddressesSectors 0 1 (readSectors primaryBase false 0 1 readyIo) ∧
      AddressesSectors 0 1 (writeSectors primaryBase false 0 1 readyIo) :=
  (requests_address_iff primaryBase false 0 1 readyIo rfl readyIo_room).mpr (by decide)

/-- The first sector past the 28 bits is asked for, and sector zero is addressed. -/
theorem high_sector_reaches_first :
    (∃ command ∈ (stateOf (writeSectors primaryBase false (2 ^ 28) 1 readyIo)).commands,
      command.sector = 0 ∧ lba28 command.register = 0) ∧
      ¬ AddressesSectors (2 ^ 28) 1 (readSectors primaryBase false (2 ^ 28) 1 readyIo) ∧
      ¬ AddressesSectors (2 ^ 28) 1 (writeSectors primaryBase false (2 ^ 28) 1 readyIo) := by
  refine ⟨?_, ?_, ?_⟩
  · have attempted := fun channel => @writeAttempt_attempts channel false
    have some_issued : (stateOf (writeSectors primaryBase false (2 ^ 28) 1 readyIo)).commands ≠ [] :=
      transferSectors_commands attempted readyIo_room (by decide) (by decide)
    have transfers : Transfers (2 ^ 28) 0 1 readyIo
        (stateOf (writeSectors primaryBase false (2 ^ 28) 1 readyIo)) :=
      transferSectors_transfers attempted (2 ^ 28) 1 readyIo
    obtain ⟨command, listed⟩ := List.exists_mem_of_ne_nil _ some_issued
    refine ⟨command, listed, ?_⟩
    rcases transfers.issued command listed with listed_before | ⟨-, below, addressed⟩
    · exact absurd listed_before List.not_mem_nil
    · have at_first : command.sector = 0 := by omega
      rw [at_first] at addressed
      exact ⟨at_first, addressed⟩
  · rw [readSectors, transferSectors_addresses (fun _ => readAttempt_attempts false) rfl readyIo_room]
    decide
  · rw [writeSectors, transferSectors_addresses (fun _ => writeAttempt_attempts false) rfl readyIo_room]
    decide

/-- Requests that address the sectors asked for never reach one place for two sector numbers. -/
theorem AddressesSectors.apart {lba count lba' count' : Nat}
    {result result' : EStateM.Result DriverError AtaIo Unit}
    (first : AddressesSectors lba count result) (second : AddressesSectors lba' count' result')
    {command command' : Command} (listed : command ∈ (stateOf result).commands)
    (listed' : command' ∈ (stateOf result').commands)
    (same : lba28 command.register = lba28 command'.register) :
    lba + command.sector = lba' + command'.sector := by
  rw [← (first.exact command listed).2, same, (second.exact command' listed').2]

end Requests

section BlockDevice

variable {io : AtaIo}

theorem withDriver_state (installed : Bool) (request : Ata Unit) (io : AtaIo) :
    (AtaBlockDevice.withDriver installed request io).2 =
      if installed then stateOf (request io) else io := by
  cases installed with
  | false => rfl
  | true =>
      simp only [AtaBlockDevice.withDriver, Bool.not_true, Bool.false_eq_true, if_false, if_true]
      cases request io with
      | ok value done => rfl
      | error reason failed => rfl

theorem withDriver_wraps {attempts : AtaChannel → Nat → Nat → Ata Unit}
    (attempted : ∀ channel sectorLba sectorOffset,
      Attempts sectorLba (attempts channel sectorLba sectorOffset))
    (installed : Bool) (base lba : Nat) (fresh : io.commands = []) :
    ∀ command ∈ (AtaBlockDevice.withDriver installed
      (transferSectors attempts base lba 1) io).2.commands, lba28 command.register = lba % 2 ^ 28 := by
  intro command listed
  rw [withDriver_state] at listed
  split at listed
  · have transfers : Transfers lba 0 1 io (stateOf (transferSectors attempts base lba 1 io)) :=
      transferSectors_transfers attempted lba 1 io
    rcases transfers.issued command listed with listed_before | ⟨-, below, addressed⟩
    · rw [fresh] at listed_before
      exact absurd listed_before List.not_mem_nil
    · rw [addressed, show command.sector = 0 by omega, Nat.add_zero]
  · rw [fresh] at listed
    exact absurd listed List.not_mem_nil

/-- The sector numbers of the layers above, which have 32 bits, are cut to 28. -/
theorem blockDevice_wraps (device : AtaBlockDevice) (installed : Bool) (lba : Nat)
    (fresh : io.commands = []) :
    (∀ command ∈ (device.readSector installed lba io).2.commands,
        lba28 command.register = lba % 2 ^ 28) ∧
      ∀ command ∈ (device.writeSector installed lba io).2.commands,
        lba28 command.register = lba % 2 ^ 28 :=
  ⟨withDriver_wraps (fun _ => readAttempt_attempts device.slave) installed _ lba fresh,
    withDriver_wraps (fun _ => writeAttempt_attempts device.slave) installed _ lba fresh⟩

end BlockDevice

end ArcadiaOs.Drivers
