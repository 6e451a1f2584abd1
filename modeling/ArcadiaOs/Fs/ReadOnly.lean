import ArcadiaOs.Fs.Cells
import ArcadiaOs.Fs.VfsCore

/-!
The actions that only read: whatever the device holds and wherever they fail, they
leave it as it is.
-/

namespace ArcadiaOs.Fs

open Lib

def Disk.left {ε α : Type} : EStateM.Result (Halt ε) Device α → Device
  | .ok _ device => device
  | .error _ device => device

def Disk.ReadOnly {ε α : Type} (action : Disk ε α) : Prop :=
  ∀ device, Disk.left (action device) = device

namespace Disk.ReadOnly

variable {ε ε' α β : Type}

theorem pure (value : α) : Disk.ReadOnly (Pure.pure value : Disk ε α) := fun _ => rfl

theorem fail (reason : ε) : Disk.ReadOnly (Disk.fail reason : Disk ε α) := fun _ => rfl

theorem panics : Disk.ReadOnly (Disk.panics : Disk ε α) := fun _ => rfl

theorem bind {action : Disk ε α} {next : α → Disk ε β} (first : action.ReadOnly)
    (second : ∀ value, (next value).ReadOnly) : (action >>= next).ReadOnly := by
  intro device
  have same := first device
  simp only [Bind.bind, EStateM.bind]
  cases ran : action device with
  | ok value device' =>
      rw [ran] at same
      obtain rfl : device' = device := same
      exact second value device'
  | error halt device' =>
      rw [ran] at same
      exact same

theorem mapErr {action : Disk ε α} (reads : action.ReadOnly) (convert : ε → ε') :
    (action.mapErr convert).ReadOnly := by
  intro device
  have same := reads device
  simp only [Disk.mapErr]
  cases ran : action device with
  | ok value device' =>
      rw [ran] at same
      exact same
  | error halt device' =>
      rw [ran] at same
      cases halt with
      | panic => exact same
      | error reason => exact same

theorem ok {action : Disk ε α} (reads : action.ReadOnly) {device device' : Device} {value : α}
    (ran : action device = .ok value device') : device' = device := by
  have same := reads device
  rw [ran] at same
  exact same

theorem answer_ok_iff {action : Disk ε α} (reads : action.ReadOnly) {device : Device} {value : α} :
    action.answer device = .ok value ↔ action device = .ok value device := by
  have same := reads device
  rw [Disk.answer]
  cases ran : action device with
  | ok other device' =>
      rw [ran] at same
      obtain rfl : device' = device := same
      simp only [Except.ok.injEq, EStateM.Result.ok.injEq, and_true]
  | error halt device' => simp only [reduceCtorEq]

end Disk.ReadOnly

namespace Fat32Fs

variable (fs : Fat32Fs)

theorem readSectorBuf_readOnly (lba : Nat) (buf : List UInt8) :
    (fs.readSectorBuf lba buf).ReadOnly := by
  refine Disk.ReadOnly.mapErr (fun device => ?_) _
  simp only [readSector]
  split
  · rfl
  split <;> rfl

theorem readSectors_readOnly (sector count index : Nat) (buf : List UInt8) :
    (fs.readSectors sector count index buf).ReadOnly := by
  induction count generalizing index buf with
  | zero => exact .pure _
  | succ count ih =>
      exact .bind (fs.readSectorBuf_readOnly _ _) fun part => ih _ _

theorem readCluster_readOnly (cluster : Nat) (buf : List UInt8) :
    (fs.readCluster cluster buf).ReadOnly := by
  rw [readCluster]
  split
  · exact .fail _
  · exact fs.readSectors_readOnly _ _ _ _

theorem readFatEntry_readOnly (cluster : Nat) : (fs.readFatEntry cluster).ReadOnly := by
  rw [readFatEntry]
  split
  · exact .panics
  · exact .bind (fs.readSectorBuf_readOnly _ _) fun _ => .pure _

theorem readChainFrom_readOnly (turns : Nat) (chain : List Nat) (current : Nat) :
    (fs.readChainFrom turns chain current).ReadOnly := by
  induction turns generalizing chain current with
  | zero => exact .pure _
  | succ turns ih =>
      rw [readChainFrom]
      split
      · exact .pure _
      refine .bind (fs.readFatEntry_readOnly _) fun next => ?_
      split
      · exact .pure _
      split
      · exact .pure _
      split
      · exact .pure _
      · exact ih _ _

theorem readChain_readOnly (start : Nat) : (fs.readChain start).ReadOnly :=
  fs.readChainFrom_readOnly _ _ _

theorem readFileFrom_readOnly (clusters : List Nat) (offset remaining : Nat) (buf : List UInt8) :
    (fs.readFileFrom clusters offset remaining buf).ReadOnly := by
  induction clusters generalizing offset remaining buf with
  | nil => exact .pure _
  | cons cluster rest ih =>
      rw [readFileFrom]
      split
      · exact .pure _
      · exact .bind (fs.readCluster_readOnly _ _) fun _ => ih _ _ _

theorem readFile_readOnly (start size : Nat) (buf : List UInt8) :
    (fs.readFile start size buf).ReadOnly :=
  .bind (fs.readChain_readOnly _) fun _ => fs.readFileFrom_readOnly _ _ _ _

theorem searchChain_readOnly (judge : Fat32DirEntry → Verdict) (clusters : List Nat) :
    (fs.searchChain judge clusters).ReadOnly := by
  induction clusters with
  | nil => exact .pure _
  | cons cluster rest ih =>
      refine .bind (fs.readCluster_readOnly _ _) fun buf => ?_
      split
      · exact .pure _
      · exact .pure _
      · exact ih

theorem findEntry_readOnly (dir : Nat) (nameUpper : List UInt8) :
    (fs.findEntry dir nameUpper).ReadOnly := by
  refine .bind (fs.readChain_readOnly _) fun chain => ?_
  refine .bind (fs.searchChain_readOnly _ _) fun found => ?_
  split
  · exact .pure _
  · exact .pure _

theorem listChain_readOnly (clusters : List Nat) : (fs.listChain clusters).ReadOnly := by
  induction clusters with
  | nil => exact .pure _
  | cons cluster rest ih =>
      refine .bind (fs.readCluster_readOnly _ _) fun buf => ?_
      simp only
      split
      · exact .pure _
      · exact .bind ih fun _ => .pure _

theorem readDirEntries_readOnly (dir : Nat) : (fs.readDirEntries dir).ReadOnly :=
  .bind (fs.readChain_readOnly _) fun _ => fs.listChain_readOnly _

end Fat32Fs

namespace VfsManager

variable (vfs : VfsManager)

theorem fs_readOnly : vfs.fs.ReadOnly := by
  rw [VfsManager.fs]
  split
  · exact .fail _
  · exact .pure _

theorem resolveComponent_readOnly (fs : Fat32Fs) (component : Path) (current : Nat) :
    (vfs.resolveComponent fs component current).ReadOnly := by
  have listed := Disk.ReadOnly.mapErr (fs.readDirEntries_readOnly current) fun _ => VfsError.ioError
  rw [resolveComponent]
  split
  · exact .pure _
  split
  · split
    · exact .pure _
    · refine .bind listed fun entries => ?_
      split
      · exact .pure _
      · exact .pure _
  · refine .bind listed fun entries => ?_
    split
    · exact .pure _
    · exact .fail _

theorem resolveComponents_readOnly (fs : Fat32Fs) (path : List Path) (current : Nat) :
    (vfs.resolveComponents fs path current).ReadOnly := by
  induction path generalizing current with
  | nil => exact .pure _
  | cons component rest ih =>
      exact .bind (vfs.resolveComponent_readOnly fs component current) fun next => ih next

theorem resolvePath_readOnly (path : Path) : (vfs.resolvePath path).ReadOnly := by
  refine .bind vfs.fs_readOnly fun fs => ?_
  simp only
  split
  · exact .pure _
  · exact vfs.resolveComponents_readOnly fs _ _

theorem resolveParent_readOnly (path : Path) : (vfs.resolveParent path).ReadOnly := by
  simp only [resolveParent]
  split
  · exact .pure _
  split
  · exact .pure _
  split
  · exact .pure _
  · exact .bind (vfs.resolvePath_readOnly _) fun _ => .pure _

theorem listDir_readOnly (path : Path) : (vfs.listDir path).ReadOnly :=
  .bind vfs.fs_readOnly fun fs => .bind (vfs.resolvePath_readOnly path) fun cluster =>
    .bind (.mapErr (fs.readDirEntries_readOnly cluster) _) fun _ => .pure _

theorem stat_readOnly (path : Path) : (vfs.stat path).ReadOnly := by
  refine .bind vfs.fs_readOnly fun fs => .bind (vfs.resolvePath_readOnly path) fun cluster => ?_
  refine .bind (vfs.resolveParent_readOnly _) fun parent => ?_
  simp only
  split
  · exact .pure _
  · refine .bind (.mapErr (fs.findEntry_readOnly _ _) _) fun found => ?_
    split
    · exact .fail _
    · exact .pure _

theorem readFileContent_readOnly (path : Path) : (vfs.readFileContent path).ReadOnly := by
  refine .bind vfs.fs_readOnly fun fs => .bind (vfs.resolveParent_readOnly path) fun parent => ?_
  simp only
  split
  · exact .pure _
  refine .bind (vfs.resolveParent_readOnly path) fun parent => ?_
  refine .bind (.mapErr (fs.findEntry_readOnly _ _) _) fun found => ?_
  split
  · exact .fail _
  split
  · exact .fail _
  split
  · exact .pure _
  · exact .bind (.mapErr (fs.readFile_readOnly _ _ _) _) fun _ => .pure _

theorem read_readOnly (fd room : Nat) : (vfs.read fd room).ReadOnly := by
  rw [read]
  split
  · exact .fail _
  refine .bind vfs.fs_readOnly fun fs => ?_
  simp only
  split
  · exact .pure _
  · exact .bind (.mapErr (fs.readFile_readOnly _ _ _) _) fun _ => .pure _

end VfsManager

end ArcadiaOs.Fs
