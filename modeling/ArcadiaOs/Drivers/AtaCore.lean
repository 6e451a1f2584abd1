import ArcadiaOs.Lib.Footprint
import Mathlib.Algebra.Group.Nat.Defs
import Mathlib.Logic.Function.Basic

/-!
The ATA driver of `drivers/ata/mod.rs` and the block device over it.  The device is a
stream of answers, one for each port that is read; bytes and words are natural numbers.
-/

namespace ArcadiaOs.Drivers

open Lib

inductive DriverError
  | deviceNotFound | initFailed | timeout | ioError | notReady | unsupported | invalidParam
  | bufferTooSmall
  deriving DecidableEq

def primaryBase : Nat := 0x1F0
def primaryControl : Nat := 0x3F6
def secondaryBase : Nat := 0x170
def secondaryControl : Nat := 0x376

def sectorSize : Nat := 512

def statusErr : Nat := 0x01
def statusDrq : Nat := 0x08
def statusDf : Nat := 0x20
def statusBsy : Nat := 0x80

def cmdReadSectors : Nat := 0x20
def cmdWriteSectors : Nat := 0x30
def cmdFlushCache : Nat := 0xE7

def maxRetries : Nat := 3
def pollTimeout : Nat := 100000

structure AtaChannel where
  basePort : Nat
  controlPort : Nat

/-- A command with the registers of its channel when it is issued.  The sector of the request that
it belongs to is no part of the source. -/
structure Command where
  sector : Nat
  opcode : Nat
  register : Nat → Nat

/-- The ports, the answers of the device and the buffer of the request.  The commands and the sector
the request is at are recorded; they are no part of the source. -/
structure AtaIo where
  device : Nat → Nat
  reads : Nat
  ports : Nat → Nat
  sector : Nat
  commands : List Command
  sent : List Nat
  buf : List Nat

/-- A call of the driver, which keeps what it has done when it fails. -/
abbrev Ata (α : Type) := EStateM DriverError AtaIo α

def readPort (_port : Nat) : Ata Nat := fun io =>
  .ok (io.device io.reads) { io with reads := io.reads + 1 }

namespace AtaChannel

def readReg (channel : AtaChannel) (offset : Nat) : Ata Nat := do
  let value ← readPort (channel.basePort + offset)
  pure (value % 2 ^ 8)

def writeReg (channel : AtaChannel) (offset value : Nat) : Ata Unit := modify fun io =>
  let ports := Function.update io.ports (channel.basePort + offset) value
  { io with
    ports
    commands :=
      if offset = 7 then
        io.commands ++ [{ sector := io.sector, opcode := value,
                          register := fun offset => ports (channel.basePort + offset) }]
      else io.commands }

def readDataWord (channel : AtaChannel) : Ata Nat := do
  let value ← readPort channel.basePort
  pure (value % 2 ^ 16)

def writeDataWord (_channel : AtaChannel) (value : Nat) : Ata Unit :=
  modify fun io => { io with sent := io.sent ++ [value] }

def readAltStatus (channel : AtaChannel) : Ata Nat := do
  let value ← readPort channel.controlPort
  pure (value % 2 ^ 8)

def writeControl (channel : AtaChannel) (value : Nat) : Ata Unit :=
  modify fun io => { io with ports := Function.update io.ports channel.controlPort value }

end AtaChannel

def getChannel (basePort : Nat) : AtaChannel :=
  if basePort = primaryBase then ⟨primaryBase, primaryControl⟩
  else if basePort = secondaryBase then ⟨secondaryBase, secondaryControl⟩
  else ⟨primaryBase, primaryControl⟩

section Channel

variable (channel : AtaChannel)

/-- Reads of the alternate status register, for their delay. -/
def delay : Nat → Ata Unit
  | 0 => pure ()
  | count + 1 => do
      let _ ← channel.readAltStatus
      delay count

def selectDevice (slave : Bool) : Ata Unit := do
  channel.writeReg 6 (if slave then 0xB0 else 0xA0)
  delay channel 4

def softwareReset : Ata Unit := do
  channel.writeControl 0x04
  delay channel 4
  channel.writeControl 0x00
  delay channel 4

def pollDrqFor : Nat → Ata Unit
  | 0 => throw .timeout
  | turns + 1 => do
      let status ← channel.readReg 7
      if status &&& statusBsy = 0 ∧ status &&& statusDrq ≠ 0 then pure ()
      else if status &&& (statusErr ||| statusDf) ≠ 0 then throw .ioError
      else pollDrqFor turns

def pollDrq : Ata Unit := pollDrqFor channel pollTimeout

def pollNotBusyFor : Nat → Ata Unit
  | 0 => throw .timeout
  | turns + 1 => do
      let status ← channel.readReg 7
      if status &&& statusBsy = 0 then pure () else pollNotBusyFor turns

def pollNotBusy : Ata Unit := pollNotBusyFor channel pollTimeout

def checkStatus : Ata Unit := do
  let status ← channel.readReg 7
  if status &&& (statusErr ||| statusDf) ≠ 0 then throw .ioError else pure ()

/-- What both requests write to the registers for a sector. -/
def programSector (slave : Bool) (sectorLba opcode : Nat) : Ata Unit := do
  selectDevice channel slave
  channel.writeReg 1 0x00
  channel.writeReg 2 0x01
  channel.writeReg 3 (sectorLba &&& 0xFF)
  channel.writeReg 4 ((sectorLba >>> 8) &&& 0xFF)
  channel.writeReg 5 ((sectorLba >>> 16) &&& 0xFF)
  channel.writeReg 6 (0xE0 ||| (if slave then 0x10 else 0x00) ||| ((sectorLba >>> 24) &&& 0x0F))
  channel.writeReg 7 opcode

def receiveWords (bufOffset : Nat) : Nat → Nat → Ata Unit
  | 0, _ => pure ()
  | count + 1, index => do
      let word ← channel.readDataWord
      let byteIdx := bufOffset + index * 2
      modify fun io =>
        if byteIdx + 1 < io.buf.length then
          { io with buf := (io.buf.set byteIdx (word &&& 0xFF)).set (byteIdx + 1) (word >>> 8) }
        else io
      receiveWords bufOffset count (index + 1)

def sendWords (bufOffset : Nat) : Nat → Nat → Ata Unit
  | 0, _ => pure ()
  | count + 1, index => do
      let buf := (← get).buf
      let byteIdx := bufOffset + index * 2
      channel.writeDataWord
        (if byteIdx + 1 < buf.length then
          buf.getD byteIdx 0 ||| buf.getD (byteIdx + 1) 0 <<< 8
        else 0)
      sendWords bufOffset count (index + 1)

def readAttempt (slave : Bool) (sectorLba sectorOffset : Nat) : Ata Unit := do
  programSector channel slave sectorLba cmdReadSectors
  pollDrq channel
  receiveWords channel (sectorOffset * sectorSize) 256 0
  pollNotBusy channel
  checkStatus channel

def writeAttempt (slave : Bool) (sectorLba sectorOffset : Nat) : Ata Unit := do
  programSector channel slave sectorLba cmdWriteSectors
  pollDrq channel
  sendWords channel (sectorOffset * sectorSize) 256 0
  pollNotBusy channel
  checkStatus channel
  channel.writeReg 7 cmdFlushCache
  pollNotBusy channel
  checkStatus channel

def retry (attempt : Ata Unit) : Nat → DriverError → Ata Unit
  | 0, lastError => throw lastError
  | attempts + 1, _ => fun io =>
      match attempt io with
      | .ok _ done => .ok () done
      | .error reason failed =>
          (do
            softwareReset channel
            retry attempt attempts reason : Ata Unit) failed

def sectorsFrom (attempt : Nat → Ata Unit) : Nat → Nat → Ata Unit
  | 0, _ => pure ()
  | count + 1, sectorOffset => do
      modify fun io => { io with sector := sectorOffset }
      retry channel (attempt sectorOffset) maxRetries .ioError
      sectorsFrom attempt count (sectorOffset + 1)

end Channel

/-- The frame that `read_sectors` and `write_sectors` share; the sum is checked in 32 bits. -/
def transferSectors (attempt : AtaChannel → Nat → Nat → Ata Unit) (channelBase lba count : Nat) :
    Ata Unit := do
  let channel := getChannel channelBase
  if (← get).buf.length < count * sectorSize then throw .bufferTooSmall
  else if count > 0 ∧ lba + (count - 1) ≥ 2 ^ 32 then throw .invalidParam
  else sectorsFrom channel (fun sectorOffset => attempt channel (lba + sectorOffset) sectorOffset) count 0

def readSectors (channelBase : Nat) (slave : Bool) (lba count : Nat) : Ata Unit :=
  transferSectors (fun channel => readAttempt channel slave) channelBase lba count

def writeSectors (channelBase : Nat) (slave : Bool) (lba count : Nat) : Ata Unit :=
  transferSectors (fun channel => writeAttempt channel slave) channelBase lba count

inductive BlockError
  | ioError | invalidSector | readOnly | deviceNotFound
  deriving DecidableEq

structure AtaBlockDevice where
  basePort : Nat
  slave : Bool

namespace AtaBlockDevice

/-- `map_err(|_| BlockError::IoError)`; without a driver nothing is done. -/
def withDriver (installed : Bool) (request : Ata Unit) (io : AtaIo) : Except BlockError Unit × AtaIo :=
  if !installed then (.error .deviceNotFound, io)
  else
    match request io with
    | .ok _ done => (.ok (), done)
    | .error _ failed => (.error .ioError, failed)

def readSector (device : AtaBlockDevice) (installed : Bool) (lba : Nat) :
    AtaIo → Except BlockError Unit × AtaIo :=
  withDriver installed (readSectors device.basePort device.slave lba 1)

def writeSector (device : AtaBlockDevice) (installed : Bool) (lba : Nat) :
    AtaIo → Except BlockError Unit × AtaIo :=
  withDriver installed (writeSectors device.basePort device.slave lba 1)

end AtaBlockDevice

end ArcadiaOs.Drivers
