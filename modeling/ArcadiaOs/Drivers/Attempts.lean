import ArcadiaOs.Drivers.AtaCore

/-!
One attempt at a sector.  A stage is described by the answers it takes from the stream: the
polls by the first answer they accept, the words by their positions.
-/

namespace ArcadiaOs.Drivers

open Lib

def DataReady (status : Nat) : Prop := status &&& statusBsy = 0 ∧ status &&& statusDrq ≠ 0
def NotBusy (status : Nat) : Prop := status &&& statusBsy = 0
def NoError (status : Nat) : Prop := status &&& (statusErr ||| statusDf) = 0

/-- The first status from `start` on that a poll accepts. -/
structure FirstStatus (accepts : Nat → Prop) (device : Nat → Nat) (start position : Nat) : Prop where
  reached : start ≤ position
  accepted : accepts (device position % 2 ^ 8)
  waited : ∀ earlier, start ≤ earlier → earlier < position → ¬accepts (device earlier % 2 ^ 8)

/-- A status without BSY, and right behind it one without ERR and DF. -/
structure CleanPair (device : Nat → Nat) (start idleAt : Nat) : Prop where
  idle : FirstStatus NotBusy device start idleAt
  clean : NoError (device (idleAt + 1) % 2 ^ 8)

def HoldsWord (buf : List Nat) (offset word : Nat) : Prop :=
  buf[offset]? = some (word % 2 ^ 8) ∧ buf[offset + 1]? = some (word / 2 ^ 8)

/-- A read from `start` on that saw clean statuses, and whose words the buffer holds. -/
structure CleanRead (device : Nat → Nat) (sector start : Nat) (buf : List Nat)
    (readyAt idleAt : Nat) : Prop where
  ready : FirstStatus DataReady device (start + 4) readyAt
  words : ∀ word < 256,
    HoldsWord buf (sector * sectorSize + word * 2) (device (readyAt + 1 + word) % 2 ^ 16)
  data : CleanPair device (readyAt + 257) idleAt

section FirstStatus

variable {accepts : Nat → Prop} {device : Nat → Nat} {start position : Nat}

theorem FirstStatus.here (accepted : accepts (device start % 2 ^ 8)) :
    FirstStatus accepts device start start :=
  ⟨Nat.le_refl _, accepted, fun _ from_start before => absurd before (Nat.not_lt.mpr from_start)⟩

theorem FirstStatus.next (refused : ¬accepts (device start % 2 ^ 8))
    (first : FirstStatus accepts device (start + 1) position) :
    FirstStatus accepts device start position := by
  refine ⟨Nat.le_of_succ_le first.reached, first.accepted, ?_⟩
  intro earlier from_start before
  rcases Nat.eq_or_lt_of_le from_start with rfl | later
  · exact refused
  · exact first.waited earlier later before

end FirstStatus

/-- Steps that write to one area of the buffer at most and issue `attempts` commands of a kind. -/
structure Touches (area : Nat → Prop) (opcode attempts : Nat) (before after : AtaIo) : Prop where
  device : after.device = before.device
  sector : after.sector = before.sector
  forward : before.reads ≤ after.reads
  length : after.buf.length = before.buf.length
  outside : ∀ index, ¬area index → after.buf[index]? = before.buf[index]?
  issued : ∃ issued, after.commands = before.commands ++ issued ∧
    (∀ command ∈ issued, command.sector = before.sector) ∧
    issued.countP (fun command => command.opcode = opcode) = attempts

section Touches

variable {area : Nat → Prop} {opcode attempts more : Nat} {before middle after : AtaIo}

theorem Touches.quiet (device : after.device = before.device) (sector : after.sector = before.sector)
    (buf : after.buf = before.buf) (commands : after.commands = before.commands)
    (forward : before.reads ≤ after.reads) : Touches area opcode 0 before after where
  device := device
  sector := sector
  forward := forward
  length := by rw [buf]
  outside := fun _ _ => by rw [buf]
  issued := ⟨[], by simp [commands], by simp, by simp⟩

theorem Touches.trans (first : Touches area opcode attempts before middle)
    (next : Touches area opcode more middle after) :
    Touches area opcode (attempts + more) before after where
  device := next.device.trans first.device
  sector := next.sector.trans first.sector
  forward := Nat.le_trans first.forward next.forward
  length := next.length.trans first.length
  outside := fun index free => (next.outside index free).trans (first.outside index free)
  issued := by
    obtain ⟨earlier, commands, sectors, count⟩ := first.issued
    obtain ⟨later, commands', sectors', count'⟩ := next.issued
    refine ⟨earlier ++ later, by simp [commands', commands], ?_, by simp [count, count']⟩
    intro command listed
    rcases List.mem_append.mp listed with inside | inside
    · exact sectors command inside
    · exact (sectors' command inside).trans first.sector

theorem Touches.go_on (first : Touches area opcode attempts before middle)
    (next : Touches area opcode 0 middle after) : Touches area opcode attempts before after :=
  first.trans next

theorem Touches.command {command : Command} (device : after.device = before.device)
    (sector : after.sector = before.sector) (buf : after.buf = before.buf)
    (commands : after.commands = before.commands ++ [command])
    (at_sector : command.sector = before.sector) (forward : before.reads ≤ after.reads) :
    Touches area opcode (if command.opcode = opcode then 1 else 0) before after where
  device := device
  sector := sector
  forward := forward
  length := by rw [buf]
  outside := fun _ _ => by rw [buf]
  issued := ⟨[command], commands, by simp [at_sector], by simp [List.countP_singleton]⟩

end Touches

section Stages

variable {channel : AtaChannel} {io : AtaIo} {area : Nat → Prop}

theorem pollDrqFor_yields (turns : Nat) (io : AtaIo) :
    Yields (fun _ done => ∃ readyAt, FirstStatus DataReady io.device io.reads readyAt ∧
        done = { io with reads := readyAt + 1 })
      (fun _ failed => ∃ reads, io.reads ≤ reads ∧ failed = { io with reads })
      (pollDrqFor channel turns io) := by
  induction turns generalizing io with
  | zero => exact .error ⟨io.reads, Nat.le_refl _, rfl⟩
  | succ turns ih =>
      change Yields _ _ ((if io.device io.reads % 2 ^ 8 &&& statusBsy = 0 ∧
          io.device io.reads % 2 ^ 8 &&& statusDrq ≠ 0 then pure ()
        else if io.device io.reads % 2 ^ 8 &&& (statusErr ||| statusDf) ≠ 0 then throw .ioError
        else pollDrqFor channel turns : Ata Unit) { io with reads := io.reads + 1 })
      split
      next ready => exact .ok ⟨io.reads, FirstStatus.here ready, rfl⟩
      next waiting =>
        split
        next refused => exact .error ⟨io.reads + 1, Nat.le_succ _, rfl⟩
        next =>
          refine (ih { io with reads := io.reads + 1 }).mono ?_ ?_
          · rintro _ _ ⟨position, first, rfl⟩
            exact ⟨position, first.next waiting, rfl⟩
          · rintro _ _ ⟨reads, forward, rfl⟩
            exact ⟨reads, Nat.le_of_succ_le forward, rfl⟩

theorem pollNotBusyFor_yields (turns : Nat) (io : AtaIo) :
    Yields (fun _ done => ∃ idleAt, FirstStatus NotBusy io.device io.reads idleAt ∧
        done = { io with reads := idleAt + 1 })
      (fun _ failed => ∃ reads, io.reads ≤ reads ∧ failed = { io with reads })
      (pollNotBusyFor channel turns io) := by
  induction turns generalizing io with
  | zero => exact .error ⟨io.reads, Nat.le_refl _, rfl⟩
  | succ turns ih =>
      change Yields _ _ ((if io.device io.reads % 2 ^ 8 &&& statusBsy = 0 then pure ()
        else pollNotBusyFor channel turns : Ata Unit) { io with reads := io.reads + 1 })
      split
      next idle => exact .ok ⟨io.reads, FirstStatus.here idle, rfl⟩
      next busy =>
        refine (ih { io with reads := io.reads + 1 }).mono ?_ ?_
        · rintro _ _ ⟨position, first, rfl⟩
          exact ⟨position, first.next busy, rfl⟩
        · rintro _ _ ⟨reads, forward, rfl⟩
          exact ⟨reads, Nat.le_of_succ_le forward, rfl⟩

theorem checkStatus_yields (io : AtaIo) :
    Yields (fun _ done => NoError (io.device io.reads % 2 ^ 8) ∧
        done = { io with reads := io.reads + 1 })
      (fun _ failed => ∃ reads, io.reads ≤ reads ∧ failed = { io with reads })
      (checkStatus channel io) := by
  change Yields _ _ ((if io.device io.reads % 2 ^ 8 &&& (statusErr ||| statusDf) ≠ 0 then
      throw .ioError else pure () : Ata Unit) { io with reads := io.reads + 1 })
  split
  next refused => exact .error ⟨io.reads + 1, Nat.le_succ _, rfl⟩
  next clean => exact .ok ⟨not_not.mp clean, rfl⟩

/-- Both requests wait and check behind the data, and a write does so again behind the flush. -/
theorem settled_yields (io : AtaIo) :
    Yields (fun _ done => ∃ idleAt, CleanPair io.device io.reads idleAt ∧
        done = { io with reads := idleAt + 2 })
      (fun _ failed => ∃ reads, io.reads ≤ reads ∧ failed = { io with reads })
      ((pollNotBusy channel >>= fun _ => checkStatus channel) io) := by
  refine (pollNotBusyFor_yields pollTimeout io).bind ?_ (fun _ _ failed => failed)
  rintro _ _ ⟨idle, first, rfl⟩
  refine (checkStatus_yields _).mono ?_ ?_
  · rintro _ _ ⟨clean, rfl⟩
    exact ⟨idle, ⟨first, clean⟩, rfl⟩
  · rintro _ _ ⟨reads, forward, rfl⟩
    exact ⟨reads, Nat.le_trans (Nat.le_succ_of_le first.reached) forward, rfl⟩

theorem programSector_yields (slave : Bool) (sectorLba opcode : Nat) (io : AtaIo) :
    ∃ after, programSector channel slave sectorLba opcode io = .ok () after ∧
      after.reads = io.reads + 4 ∧ after.sent = io.sent ∧ after.buf = io.buf ∧
      Touches area opcode 1 io after := by
  have ran : ∃ after, programSector channel slave sectorLba opcode io = .ok () after ∧
      (after.reads = io.reads + 4 ∧ after.sent = io.sent ∧ after.buf = io.buf) ∧
      (after.device = io.device ∧ after.sector = io.sector) ∧
      ∃ command, after.commands = io.commands ++ [command] ∧ command.sector = io.sector ∧
        command.opcode = opcode :=
    ⟨_, rfl, ⟨rfl, rfl, rfl⟩, ⟨rfl, rfl⟩, _, rfl, rfl, rfl⟩
  obtain ⟨after, ran, ⟨reads, sent, buf⟩, ⟨device, sector⟩, command, commands, at_sector, kind⟩ := ran
  refine ⟨after, ran, reads, sent, buf, ?_⟩
  have touches := @Touches.command area opcode _ _ command device sector buf commands at_sector
    (by rw [reads]; exact Nat.le_add_right _ _)
  rwa [if_pos kind] at touches

theorem delay_eq (count : Nat) (io : AtaIo) :
    delay channel count io = .ok () { io with reads := io.reads + count } := by
  induction count generalizing io with
  | zero => rfl
  | succ count ih =>
      change delay channel count { io with reads := io.reads + 1 } = _
      rw [ih, Nat.add_right_comm, Nat.add_assoc]

theorem softwareReset_yields (io : AtaIo) :
    ∃ after, softwareReset channel io = .ok () after ∧ after.buf = io.buf ∧
      ∀ opcode, Touches area opcode 0 io after := by
  have ran : ∃ ports, softwareReset channel io =
      .ok () { io with reads := io.reads + 4 + 4, ports := ports } := by
    simp only [softwareReset, AtaChannel.writeControl, bind_apply, delay_eq, modify_apply]
    exact ⟨_, rfl⟩
  obtain ⟨ports, ran⟩ := ran
  refine ⟨_, ran, rfl, fun _ => Touches.quiet rfl rfl rfl rfl ?_⟩
  exact Nat.le_add_right _ (4 + 4)

theorem readDataWord_eq (io : AtaIo) : channel.readDataWord io =
    .ok (io.device io.reads % 2 ^ 16) { io with reads := io.reads + 1 } := rfl

theorem holdsWord_set {buf : List Nat} {offset : Nat} (room : offset + 1 < buf.length) (word : Nat) :
    HoldsWord ((buf.set offset (word &&& 0xFF)).set (offset + 1) (word >>> 8)) offset word := by
  have low : word &&& 0xFF = word % 2 ^ 8 := Nat.and_two_pow_sub_one_eq_mod word 8
  have high : word >>> 8 = word / 2 ^ 8 := Nat.shiftRight_eq_div_pow word 8
  constructor
  · simp [low, Nat.lt_of_succ_lt room]
  · simp [high, room]

theorem receiveWords_yields (bufOffset count index : Nat) (io : AtaIo)
    (room : bufOffset + (index + count) * 2 ≤ io.buf.length) :
    ∃ buf, receiveWords channel bufOffset count index io =
        .ok () { io with reads := io.reads + count, buf := buf } ∧
      buf.length = io.buf.length ∧
      (∀ word < count, HoldsWord buf (bufOffset + (index + word) * 2)
        (io.device (io.reads + word) % 2 ^ 16)) ∧
      ∀ position, position < bufOffset + index * 2 ∨ bufOffset + (index + count) * 2 ≤ position →
        buf[position]? = io.buf[position]? := by
  induction count generalizing index io with
  | zero => exact ⟨io.buf, rfl, rfl, by simp, by simp⟩
  | succ count ih =>
      have inside : bufOffset + index * 2 + 1 < io.buf.length := by omega
      let stored := (io.buf.set (bufOffset + index * 2) (io.device io.reads % 2 ^ 16 &&& 0xFF)).set
        (bufOffset + index * 2 + 1) ((io.device io.reads % 2 ^ 16) >>> 8)
      have length : stored.length = io.buf.length := by simp [stored]
      obtain ⟨buf, ran, kept, words, outside⟩ := ih (index + 1)
        { io with reads := io.reads + 1, buf := stored } (by simp only [length]; omega)
      refine ⟨buf, ?_, kept.trans length, ?_, ?_⟩
      · have step : receiveWords channel bufOffset (count + 1) index io =
            receiveWords channel bufOffset count (index + 1)
              { io with reads := io.reads + 1, buf := stored } := by
          simp only [receiveWords, bind_apply, readDataWord_eq, modify_apply, if_pos inside, stored]
        rw [step, ran, Nat.add_right_comm, Nat.add_assoc]
      · intro word below
        cases word with
        | zero =>
            -- The words behind it leave the two bytes alone.
            have here := holdsWord_set inside (io.device io.reads % 2 ^ 16)
            exact ⟨(outside _ (.inl (by omega))).trans here.1, (outside _ (.inl (by omega))).trans here.2⟩
        | succ word =>
            have later := words word (by omega)
            rw [Nat.add_right_comm index, Nat.add_assoc, Nat.add_right_comm io.reads,
              Nat.add_assoc] at later
            exact later
      · intro position free
        rw [outside position (by omega)]
        simp only [stored, List.getElem?_set]
        rw [if_neg (by omega), if_neg (by omega)]

end Stages

section Attempts

variable {channel : AtaChannel} {slave : Bool} {sectorLba sector : Nat} {io : AtaIo}

def InSector (sector index : Nat) : Prop :=
  sector * sectorSize ≤ index ∧ index < (sector + 1) * sectorSize

theorem sector_end (sector : Nat) : (sector + 1) * sectorSize = sector * sectorSize + 512 :=
  Nat.succ_mul sector sectorSize

theorem readAttempt_yields (room : (sector + 1) * sectorSize ≤ io.buf.length) :
    Yields (fun _ done => Touches (InSector sector) cmdReadSectors 1 io done ∧
        ∃ readyAt idleAt, CleanRead io.device sector io.reads done.buf readyAt idleAt ∧
          idleAt < done.reads)
      (fun _ failed => Touches (InSector sector) cmdReadSectors 1 io failed)
      (readAttempt channel slave sectorLba sector io) := by
  obtain ⟨begun, ran, reads, -, buf, touches⟩ :=
    @programSector_yields channel (InSector sector) slave sectorLba cmdReadSectors io
  rw [readAttempt, bind_apply, ran]
  simp only
  refine (pollDrqFor_yields pollTimeout begun).bind ?_ ?_
  · rintro _ _ ⟨readyAt, ready, rfl⟩
    obtain ⟨stored, received, length, words, outside⟩ := @receiveWords_yields channel
      (sector * sectorSize) 256 0 { begun with reads := readyAt + 1 } (by simp only [buf]; rw [sector_end] at room; omega)
    rw [bind_apply, received]
    simp only
    have filled : Touches (InSector sector) cmdReadSectors 1 io
        { begun with reads := readyAt + 1 + 256, buf := stored } := by
      have forward : begun.reads ≤ readyAt + 1 + 256 :=
        Nat.le_trans ready.reached (Nat.le_add_right readyAt (1 + 256))
      refine touches.go_on ⟨rfl, rfl, forward, length, ?_, [], by simp, by simp, by simp⟩
      intro index free
      exact outside index (by rw [InSector, sector_end] at free; omega)
    refine (settled_yields _).mono ?_ ?_
    · rintro _ _ ⟨idleAt, clean, rfl⟩
      simp only [Nat.zero_add] at words
      rw [touches.device] at ready clean
      rw [reads] at ready
      have forward := Nat.le_trans clean.idle.reached (Nat.le_add_right idleAt 2)
      refine ⟨filled.go_on (Touches.quiet rfl rfl rfl rfl forward), readyAt, idleAt,
        ⟨ready, ?_, clean⟩, Nat.lt_add_of_pos_right Nat.two_pos⟩
      intro word below
      rw [← touches.device]
      exact words word below
    · rintro _ _ ⟨reads, forward, rfl⟩
      exact filled.go_on (Touches.quiet rfl rfl rfl rfl forward)
  · rintro _ _ ⟨reads, forward, rfl⟩
    exact touches.go_on (Touches.quiet rfl rfl rfl rfl forward)

end Attempts

end ArcadiaOs.Drivers
