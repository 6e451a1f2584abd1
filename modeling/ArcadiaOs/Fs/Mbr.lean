import ArcadiaOs.Drivers.SectorTransfers
import ArcadiaOs.Lib.Bytes

/-!
The partition table of `fs/mbr.rs`.  The human-readable sizes are left out.
-/

namespace ArcadiaOs.Fs

open Lib Drivers

def mbrBootSig : Nat := 0xAA55
def maxPartitions : Nat := 4

inductive PartitionType
  | empty | fat12 | fat16Small | fat16Large | fat32Chs | fat32Lba | ntfs | linuxSwap | linux | extended
  | unknown (byte : UInt8)
  deriving DecidableEq

def PartitionType.fromByte (byte : UInt8) : PartitionType :=
  match byte.toNat with
  | 0x00 => .empty
  | 0x01 => .fat12
  | 0x04 | 0x06 => .fat16Small
  | 0x0B => .fat32Chs
  | 0x0C => .fat32Lba
  | 0x07 => .ntfs
  | 0x82 => .linuxSwap
  | 0x83 => .linux
  | 0x05 | 0x0F => .extended
  | _ => .unknown byte

/-- The type of an entry follows from its type byte. -/
structure PartitionEntry where
  bootIndicator : UInt8
  partitionType : PartitionType
  typeByte : UInt8
  chsFirst : List UInt8
  chsLast : List UInt8
  lbaFirst : Nat
  sectorCount : Nat
  typed : partitionType = .fromByte typeByte
  threeFirst : chsFirst.length = 3
  threeLast : chsLast.length = 3
  lbaFirst_lt : lbaFirst < 256 ^ 4
  sectorCount_lt : sectorCount < 256 ^ 4

namespace PartitionEntry

def isActive (entry : PartitionEntry) : Bool := entry.bootIndicator = 0x80

def isEmpty (entry : PartitionEntry) : Bool := entry.partitionType = .empty

def readAt (sector : List UInt8) (offset : Nat) : PartitionEntry where
  bootIndicator := byteAt sector offset
  partitionType := .fromByte (byteAt sector (offset + 4))
  typeByte := byteAt sector (offset + 4)
  chsFirst := bytesAt sector (offset + 1) 3
  chsLast := bytesAt sector (offset + 5) 3
  lbaFirst := ofLeBytes (bytesAt sector (offset + 8) 4)
  sectorCount := ofLeBytes (bytesAt sector (offset + 12) 4)
  typed := rfl
  threeFirst := length_bytesAt _ _ _
  threeLast := length_bytesAt _ _ _
  lbaFirst_lt := by simpa [length_bytesAt] using ofLeBytes_lt (bytesAt sector (offset + 8) 4)
  sectorCount_lt := by simpa [length_bytesAt] using ofLeBytes_lt (bytesAt sector (offset + 12) 4)

def empty : PartitionEntry where
  bootIndicator := 0
  partitionType := .empty
  typeByte := 0
  chsFirst := [0, 0, 0]
  chsLast := [0, 0, 0]
  lbaFirst := 0
  sectorCount := 0
  typed := rfl
  threeFirst := rfl
  threeLast := rfl
  lbaFirst_lt := by decide
  sectorCount_lt := by decide

end PartitionEntry

/-- A table is valid by its signature. -/
structure MbrTable where
  bootSig : Nat
  partitions : List PartitionEntry
  valid : Bool
  four : partitions.length = maxPartitions
  bootSig_lt : bootSig < 256 ^ 2
  checked : valid = decide (bootSig = mbrBootSig)

namespace MbrTable

def new : MbrTable where
  bootSig := 0
  partitions := List.replicate maxPartitions .empty
  valid := false
  four := List.length_replicate
  bootSig_lt := by decide
  checked := rfl

def parse (sector : List UInt8) : MbrTable :=
  if sector.length < Drivers.sectorSize then .new
  else
    { bootSig := ofLeBytes (bytesAt sector 510 2)
      partitions := (List.range maxPartitions).map fun index => .readAt sector (446 + index * 16)
      valid := ofLeBytes (bytesAt sector 510 2) = mbrBootSig
      four := by simp
      bootSig_lt := by simpa [length_bytesAt] using ofLeBytes_lt (bytesAt sector 510 2)
      checked := rfl }

def partitionCount (table : MbrTable) : Nat :=
  if !table.valid then 0 else (table.partitions.filter fun entry => !entry.isEmpty).length

def activePartition (table : MbrTable) : Option PartitionEntry :=
  table.partitions.find? fun entry => entry.isActive

end MbrTable

/-! The table as it stands in a sector. -/

def PartitionEntry.encode (entry : PartitionEntry) : List UInt8 :=
  [entry.bootIndicator] ++ entry.chsFirst ++ [entry.typeByte] ++ entry.chsLast ++
    leBytes 4 entry.lbaFirst ++ leBytes 4 entry.sectorCount

def MbrTable.encode (table : MbrTable) : List UInt8 :=
  table.partitions.flatMap PartitionEntry.encode ++ leBytes 2 table.bootSig

theorem PartitionEntry.length_encode (entry : PartitionEntry) : entry.encode.length = 16 := by
  simp [encode, entry.threeFirst, entry.threeLast]

theorem PartitionEntry.encode_inj (left right : PartitionEntry) (same : left.encode = right.encode) :
    left = right := by
  simp only [encode, List.append_assoc, List.cons_append, List.nil_append,
    List.cons.injEq] at same
  obtain ⟨indicator, same⟩ := same
  obtain ⟨first, same⟩ := List.append_inj same (by rw [left.threeFirst, right.threeFirst])
  obtain ⟨kind, same⟩ := List.cons.inj same
  obtain ⟨last, same⟩ := List.append_inj same (by rw [left.threeLast, right.threeLast])
  obtain ⟨lba, count⟩ := List.append_inj same (by simp)
  have number {left right : Nat} (bound : left < 256 ^ 4) (other : right < 256 ^ 4)
      (same : leBytes 4 left = leBytes 4 right) : left = right := by
    rw [← Nat.mod_eq_of_lt bound, ← Nat.mod_eq_of_lt other, ← ofLeBytes_leBytes, same,
      ofLeBytes_leBytes]
  have typed := left.typed.trans ((congrArg PartitionType.fromByte kind).trans right.typed.symm)
  have lbaFirst := number left.lbaFirst_lt right.lbaFirst_lt lba
  have sectorCount := number left.sectorCount_lt right.sectorCount_lt count
  cases left
  cases right
  simp only at indicator first kind last lbaFirst sectorCount typed
  subst indicator first kind last lbaFirst sectorCount typed
  rfl

theorem PartitionEntry.encode_readAt (sector : List UInt8) (offset : Nat) :
    (readAt sector offset).encode = bytesAt sector offset 16 := by
  have number (offset : Nat) : leBytes 4 (ofLeBytes (bytesAt sector offset 4)) =
      bytesAt sector offset 4 := by
    have whole := leBytes_ofLeBytes (bytesAt sector offset 4)
    rwa [length_bytesAt] at whole
  have one (offset : Nat) : [byteAt sector offset] = bytesAt sector offset 1 := rfl
  have parts : bytesAt sector offset 16 = bytesAt sector offset 1 ++ bytesAt sector (offset + 1) 3 ++
      bytesAt sector (offset + 4) 1 ++ bytesAt sector (offset + 5) 3 ++ bytesAt sector (offset + 8) 4 ++
      bytesAt sector (offset + 12) 4 := by
    simp only [← bytesAt_add, Nat.reduceAdd]
  rw [parts, encode]
  simp only [readAt, number, one]

theorem MbrTable.length_entries (table : MbrTable) :
    (table.partitions.flatMap PartitionEntry.encode).length = 64 := by
  simp [List.length_flatMap, PartitionEntry.length_encode, table.four, maxPartitions]

theorem MbrTable.length_encode (table : MbrTable) : table.encode.length = 66 := by
  rw [encode, List.length_append, table.length_entries, length_leBytes]

theorem MbrTable.encode_inj {left right : MbrTable} (same : left.encode = right.encode) :
    left = right := by
  obtain ⟨entries, signature⟩ := List.append_inj same (by rw [length_entries, length_entries])
  have partitions := flatMap_inj PartitionEntry.length_encode PartitionEntry.encode_inj
    (left.four.trans right.four.symm) entries
  have bootSig : left.bootSig = right.bootSig := by
    rw [← Nat.mod_eq_of_lt left.bootSig_lt, ← Nat.mod_eq_of_lt right.bootSig_lt,
      ← ofLeBytes_leBytes, signature, ofLeBytes_leBytes]
  have valid : left.valid = right.valid := by rw [left.checked, right.checked, bootSig]
  cases left
  cases right
  simp only at partitions bootSig valid
  subst partitions bootSig valid
  rfl

theorem MbrTable.encode_parse {sector : List UInt8} (long : Drivers.sectorSize ≤ sector.length) :
    (parse sector).encode = bytesAt sector 446 66 := by
  have signature : leBytes 2 (ofLeBytes (bytesAt sector 510 2)) = bytesAt sector 510 2 := by
    have whole := leBytes_ofLeBytes (bytesAt sector 510 2)
    rwa [length_bytesAt] at whole
  have entries : ((List.range maxPartitions).map fun index =>
      PartitionEntry.readAt sector (446 + index * 16)).flatMap PartitionEntry.encode =
        bytesAt sector 446 64 := by
    simp only [List.flatMap_map, PartitionEntry.encode_readAt]
    exact flatMap_bytesAt sector 446 16 4
  rw [parse, if_neg (Nat.not_lt.mpr long), encode]
  simp only [entries, signature]
  exact (bytesAt_add sector 446 64 2).symm

theorem MbrTable.parse_encode (table : MbrTable) {front : List UInt8} (back : List UInt8)
    (place : front.length = 446) : parse (front ++ table.encode ++ back) = table := by
  have length := table.length_encode
  have long : Drivers.sectorSize ≤ (front ++ table.encode ++ back).length := by
    simp only [List.length_append, length, place, Drivers.sectorSize]
    omega
  apply encode_inj
  rw [encode_parse long, bytesAt_eq_slice]
  · have middle := slice_middle front table.encode back
    rwa [place, length] at middle
  · simp only [List.length_append, length, place]
    omega

/-- Tables and the last 66 bytes of a sector are the same thing: what is written is read back, and what
is read is all that is there. -/
theorem mbr_round_trip (table : MbrTable) {front sector : List UInt8} (back : List UInt8)
    (place : front.length = 446) (long : Drivers.sectorSize ≤ sector.length) :
    .parse (front ++ table.encode ++ back) = table ∧
      (MbrTable.parse sector).encode = bytesAt sector 446 66 :=
  ⟨table.parse_encode back place, MbrTable.encode_parse long⟩

/-- A FAT32 partition that is active, and one for Linux behind it. -/
def twoPartitions : MbrTable where
  bootSig := mbrBootSig
  partitions :=
    [{ bootIndicator := 0x80
       partitionType := .fat32Lba
       typeByte := 0x0C
       chsFirst := [0x20, 0x21, 0x00]
       chsLast := [0xFE, 0xFF, 0xFF]
       lbaFirst := 2048
       sectorCount := 1048576
       typed := rfl
       threeFirst := rfl
       threeLast := rfl
       lbaFirst_lt := by decide
       sectorCount_lt := by decide },
     { PartitionEntry.empty with
       partitionType := .linux
       typeByte := 0x83
       lbaFirst := 1050624
       sectorCount := 4096
       typed := rfl
       lbaFirst_lt := by decide
       sectorCount_lt := by decide },
     .empty, .empty]
  valid := true
  four := rfl
  bootSig_lt := by decide
  checked := rfl

/-- The table is written behind a boot loader, and a sector of one byte over and over is read. -/
theorem mbr_round_trip_two :
    MbrTable.parse (List.replicate 446 0x90 ++ twoPartitions.encode ++ []) = twoPartitions ∧
      (MbrTable.parse (List.replicate 512 0x5A)).encode = bytesAt (List.replicate 512 0x5A) 446 66 :=
  mbr_round_trip twoPartitions [] List.length_replicate
    (Nat.le_of_eq List.length_replicate.symm)

theorem PartitionType.fromByte_empty (byte : UInt8) : fromByte byte = .empty ↔ byte = 0 := by
  constructor
  · intro same
    unfold fromByte at same
    split at same
    next zero => exact UInt8.toNat_inj.mp zero
    all_goals cases same
  · rintro rfl
    rfl

theorem MbrTable.partitionCount_eq (table : MbrTable) : table.partitionCount =
    if table.bootSig = mbrBootSig then table.partitions.countP fun entry => entry.typeByte ≠ 0
    else 0 := by
  have used (entry : PartitionEntry) : (!entry.isEmpty) = decide (entry.typeByte ≠ 0) := by
    rw [PartitionEntry.isEmpty, entry.typed]
    simp [PartitionType.fromByte_empty]
  simp only [partitionCount, table.checked, used, List.countP_eq_length_filter]
  by_cases signed : table.bootSig = mbrBootSig <;> simp [signed]

def readMbr (installed : Bool) (io : AtaIo) : Except String MbrTable × AtaIo :=
  if !installed then (.error "No ATA driver", io)
  else
    match Drivers.readSectors primaryBase false 0 1 { io with buf := List.replicate Drivers.sectorSize 0 } with
    | .ok _ done => (.ok (.parse (done.buf.map UInt8.ofNat)), done)
    | .error _ failed => (.error "Read error", failed)

theorem readMbr_ok {io done : AtaIo}
    (ran : Drivers.readSectors primaryBase false 0 1 { io with buf := List.replicate Drivers.sectorSize 0 } =
      .ok () done) : readMbr true io = (.ok (.parse (done.buf.map UInt8.ofNat)), done) := by
  simp only [readMbr, Bool.not_true, Bool.false_eq_true, if_false, ran]

theorem holdsWord_bytes {buf : List Nat} {offset word : Nat} (holds : HoldsWord buf offset word) :
    bytesAt (buf.map UInt8.ofNat) offset 2 = leBytes 2 word := by
  have byte {index value : Nat} (found : buf[index]? = some value) :
      byteAt (buf.map UInt8.ofNat) index = UInt8.ofNat value := by
    rw [byteAt, List.getD_eq_getElem?_getD, List.getElem?_map, found]
    rfl
  have low : UInt8.ofNat (word % 256) = UInt8.ofNat word := by
    apply UInt8.toNat_inj.mp
    simp
  simp [bytesAt, List.range_succ, byte holds.1, byte holds.2, leBytes, low]

/-- Whatever the device answers, a table that is read is the one that the last 33 words of a sector
describe, read between clean statuses during the call. -/
theorem read_mbr_decodes {installed : Bool} {io done : AtaIo} {table : MbrTable}
    (read : readMbr installed io = (.ok table, done)) : ∃ start readyAt idleAt,
    io.reads ≤ start ∧ FirstStatus DataReady io.device (start + 4) readyAt ∧
      CleanPair io.device (readyAt + 257) idleAt ∧ idleAt < done.reads ∧
      table.encode = (List.range 33).flatMap fun word =>
        leBytes 2 (io.device (readyAt + 1 + (223 + word)) % 2 ^ 16) := by
  cases installed with
  | false => cases read
  | true =>
      have run := @transferSectors_yields (fun channel => readAttempt channel false) primaryBase 0 1
        cmdReadSectors { io with buf := List.replicate Drivers.sectorSize 0 } _ _
        (fun _ _ inside => inside) (fun sector io room => readAttempt_yields room) (by decide)
      rw [readMbr, if_neg (by decide), Drivers.readSectors] at read
      cases answered : transferSectors (fun channel => readAttempt channel false) primaryBase 0 1
          { io with buf := List.replicate Drivers.sectorSize 0 } with
      | error reason failed =>
          rw [answered] at read
          cases read
      | ok value finished =>
          rw [answered] at read run
          simp only [Prod.mk.injEq, Except.ok.injEq] at read
          obtain ⟨rfl, rfl⟩ := read
          cases run with
          | ok passed =>
              obtain ⟨progress, -, passed⟩ := passed
              obtain ⟨begun, last, -, -, ⟨readyAt, idleAt, clean, inside⟩, device, after, before, -, kept⟩ :=
                passed 0 Nat.one_pos
              rw [device] at clean
              refine ⟨begun.reads, readyAt, idleAt, after, clean.ready, clean.data,
                Nat.lt_of_lt_of_le inside before, ?_⟩
              have length : finished.buf.length = Drivers.sectorSize := by
                rw [progress.length]
                exact List.length_replicate
              rw [MbrTable.encode_parse (by rw [List.length_map, length]),
                ← flatMap_bytesAt _ 446 2 33]
              refine List.flatMap_congr fun word member => ?_
              have inside := List.mem_range.mp member
              have here := clean.words (223 + word) (by omega)
              have stays (index : Nat) (below : index < 512) :
                  finished.buf[index]? = last.buf[index]? :=
                kept index ⟨by omega, by simp only [Drivers.sectorSize]; omega⟩
              have holds : HoldsWord finished.buf (446 + word * 2)
                  (io.device (readyAt + 1 + (223 + word)) % 2 ^ 16) := by
                rw [show 0 * Drivers.sectorSize + (223 + word) * 2 = 446 + word * 2 by omega] at here
                exact ⟨(stays _ (by omega)).trans here.1, (stays _ (by omega)).trans here.2⟩
              exact holdsWord_bytes holds

theorem read_mbr_decodes_ready : ∃ table done, readMbr true readyIo = (.ok table, done) ∧
    ∃ readyAt, table.encode = (List.range 33).flatMap fun word =>
      leBytes 2 (readyIo.device (readyAt + 1 + (223 + word)) % 2 ^ 16) := by
  have room : (0 + 1) * Drivers.sectorSize ≤ readyIo.buf.length := readyIo_room
  obtain ⟨done, ran⟩ := @transferSectors_first (fun channel => readAttempt channel false) primaryBase
    (readAttempt_ready rfl room)
  have read : readMbr true readyIo = _ := readMbr_ok ran
  obtain ⟨_, readyAt, _, _, _, _, _, decodes⟩ := read_mbr_decodes read
  exact ⟨_, done, read, readyAt, decodes⟩

end ArcadiaOs.Fs
