import ArcadiaOs.Fs.RelativePaths
import ArcadiaOs.Fs.SharedFile
import ArcadiaOs.Fs.Shrinking

/-!
A write at the position of a descriptor.  Behind position 0 `write` patches the whole file; at
position 0 it stores the data alone, and the rest of the chain is filled with zeros.
-/

namespace ArcadiaOs.Fs

open Lib

namespace Volume

variable {fs : Fat32Fs} {volume : Volume}

/-- The bytes of a file that `read_chain` can reach. -/
def reach (fs : Fat32Fs) : Nat := (Fat32Fs.maxChain + 1) * fs.bpb.clusterSizeBytes

theorem byteAt_visible (shaped : volume.Shaped fs) (clusters : List Nat) (index : Nat) :
    byteAt (volume.contents (Fat32Fs.visible clusters)) index =
      if index < reach fs then byteAt (volume.contents clusters) index else 0 := by
  have whole : volume.contents clusters = volume.contents (Fat32Fs.visible clusters) ++
      volume.contents (clusters.drop (Fat32Fs.maxChain + 1)) := by
    rw [contents, contents, contents, ← List.flatMap_append, Fat32Fs.visible, List.take_append_drop]
  have length := length_contents shaped (Fat32Fs.visible clusters)
  have most : (volume.contents (Fat32Fs.visible clusters)).length ≤ reach fs := by
    rw [length, reach]
    refine Nat.mul_le_mul_right _ ?_
    rw [Fat32Fs.visible, List.length_take]
    exact Nat.min_le_left _ _
  by_cases inside : index < reach fs
  · rw [if_pos inside, whole, byteAt_append]
    by_cases shown : index < (volume.contents (Fat32Fs.visible clusters)).length
    · rw [if_pos shown]
    · -- all of a chain that ends before the reach is read
      rw [if_neg shown, byteAt_beyond (Nat.le_of_not_lt shown)]
      have short : clusters.length ≤ Fat32Fs.maxChain + 1 := by
        by_contra long
        rw [length, Fat32Fs.visible, List.length_take, Nat.min_eq_left (by omega)] at shown
        exact shown inside
      rw [List.drop_of_length_le short, contents, List.flatMap_nil, byteAt_beyond (Nat.zero_le _)]
  · rw [if_neg inside, byteAt_beyond (by omega)]

theorem byteAt_stored (geometry : fs.Geometry) (shaped : volume.Shaped fs) {start : Nat}
    {clusters tail : List Nat} {data : List UInt8} (chain : volume.Chain fs start clusters)
    (extension : volume.Extension fs (Fat32Fs.visible clusters) data tail)
    (fits : fs.clustersNeeded data ≤ clusters.length + 1) (index : Nat) :
    byteAt ((volume.store fs (Fat32Fs.visible clusters) tail data).contents
        (Fat32Fs.visible (Fat32Fs.visible clusters ++ tail))) index =
      if index < reach fs then byteAt data index else 0 := by
  have distinct := extension.distinct chain.visible_distinct fun cluster member =>
    chain.not_free (Chain.mem_visible member)
  have single : tail.length ≤ 1 := by
    rcases extension with ⟨_, rfl⟩ | ⟨_, _, _, rfl⟩
    · exact Nat.zero_le 1
    · exact Nat.le_refl 1
  rw [byteAt_visible (store_shaped shaped), byteAt_store distinct single]
  by_cases inside : index < reach fs
  · rw [if_pos inside, if_pos inside]
    by_cases old : index < (Fat32Fs.visible clusters).length * fs.bpb.clusterSizeBytes
    · rw [if_pos old]
    · rw [if_neg old]
      have all : (Fat32Fs.visible clusters).length = clusters.length := by
        by_contra cut
        rw [Fat32Fs.visible, List.length_take] at cut old
        rw [Nat.min_eq_left (by omega)] at old
        exact old inside
      rcases extension with ⟨enough, rfl⟩ | ⟨short, _, _, rfl⟩
      · have bound := Fat32Fs.length_of_needed geometry enough
        rw [List.length_nil, Nat.add_zero, if_neg old, byteAt_beyond (by omega)]
      · have needed : fs.clustersNeeded data - 1 = (Fat32Fs.visible clusters).length := by omega
        have bound := Fat32Fs.length_of_needed geometry
          (show fs.clustersNeeded data ≤ (Fat32Fs.visible clusters).length + 1 by omega)
        rw [needed, List.length_singleton]
        split
        · congr 1
          omega
        · rw [byteAt_beyond (by omega)]
  · rw [if_neg inside, if_neg inside]

theorem byteAt_bytesOf (geometry : fs.Geometry) {entry : Fat32DirEntry} {clusters : List Nat}
    (chain : volume.Chain fs entry.firstCluster clusters) (index : Nat) :
    byteAt (volume.bytesOf entry) index = if index < entry.fileSize.toNat then
      byteAt (volume.contents (Fat32Fs.visible clusters)) index else 0 := by
  rw [bytesOf, geometry.chainOf_eq chain, byteAt_fit]

/-- What `write` stores: the data at its position, and from another position than 0 what the file
held around it. -/
theorem byteAt_patch (geometry : fs.Geometry) {entry : Fat32DirEntry} {clusters : List Nat}
    (chain : volume.Chain fs entry.firstCluster clusters) {file : FileDescriptor}
    (start : entry.firstCluster = file.cluster) (size : entry.fileSize.toNat = file.size)
    (data : List UInt8) (index : Nat) :
    byteAt (volume.patch file data) index =
      if file.pos ≤ index ∧ index < file.pos + data.length then byteAt data (index - file.pos)
      else if file.pos = 0 then 0 else byteAt (volume.bytesOf entry) index := by
  rw [patch]
  by_cases first : file.pos = 0
  · rw [if_pos first, if_pos first, first]
    by_cases inside : index < data.length
    · rw [if_pos (by omega), Nat.sub_zero]
    · rw [if_neg (by omega), byteAt_beyond (by omega)]
  · rw [if_neg first, if_neg first, byteAt_splice (by rw [length_fit]; omega)]
    split
    · rfl
    · rw [byteAt_bytesOf geometry chain, byteAt_fit, byteAt_take, ← start,
        geometry.chainOf_eq chain, size]
      by_cases inside : index < file.size
      · rw [if_pos inside, if_pos (by omega)]
      · rw [if_neg inside, ite_self]

section Written

variable {file : FileDescriptor} {data : List UInt8} {position : Position} {clusters tail : List Nat}
  (extension : volume.Extension fs (Fat32Fs.visible clusters) (volume.patch file data) tail)
  (sound : volume.Sound fs) (live : volume.Live fs (.slot position))
  (regular : (volume.entry position).isDirectory = false)
  (start : (volume.entry position).firstCluster = file.cluster) (present : 2 ≤ file.cluster)
  (owned : volume.Owns fs (.slot position) clusters)
include extension sound live regular owned

theorem written_kept {cluster : Nat} (member : cluster ∈ Fat32Fs.visible clusters ++ tail) :
    (volume.store fs (Fat32Fs.visible clusters) tail (volume.patch file data)).Kept
      (volume.written fs file data position clusters tail) cluster := by
  have apart : cluster ≠ position.1 := by
    rintro rfl
    rcases List.mem_append.mp member with old | new
    · exact live.outside sound live regular owned (Chain.mem_visible old)
    · exact live.claimed.1.not_free (extension.fresh new).2
  rw [written]
  split
  · exact ⟨rfl, setData_data_other _ _ apart⟩
  · exact ⟨rfl, rfl⟩

include start present

theorem written_chain : (volume.written fs file data position clusters tail).Chain fs file.cluster
    (Fat32Fs.visible clusters ++ tail) := by
  have chain : volume.Chain fs file.cluster clusters := start ▸ owned
  exact (store_chain chain present extension).kept fun _ member =>
    written_kept extension sound live regular owned member

theorem byteAt_written (geometry : fs.Geometry) (shaped : volume.Shaped fs)
    (fits : fs.clustersNeeded (volume.patch file data) ≤ clusters.length + 1)
    {entry : Fat32DirEntry} (same : entry.firstCluster = file.cluster) (index : Nat) :
    byteAt ((volume.written fs file data position clusters tail).bytesOf entry) index =
      if index < entry.fileSize.toNat ∧ index < reach fs then
        byteAt (volume.patch file data) index else 0 := by
  have chain : volume.Chain fs file.cluster clusters := start ▸ owned
  have chain' := written_chain extension sound live regular start present owned
  rw [← same] at chain'
  have contents : (volume.written fs file data position clusters tail).contents
        (Fat32Fs.visible (Fat32Fs.visible clusters ++ tail)) =
      (volume.store fs (Fat32Fs.visible clusters) tail (volume.patch file data)).contents
        (Fat32Fs.visible (Fat32Fs.visible clusters ++ tail)) :=
    contents_congr fun _ member =>
      (written_kept extension sound live regular owned (Chain.mem_visible member)).2
  rw [byteAt_bytesOf geometry chain', contents, byteAt_stored geometry shaped chain extension fits,
    ite_and]

end Written

theorem readContent_names {path : Path} {position : Position} (names : volume.Names fs path position)
    (regular : (volume.entry position).isDirectory = false) :
    volume.readContent fs path = .ok (volume.bytesOf (volume.entry position)) := by
  obtain ⟨dir, parent, found⟩ := names.found
  simp only [readContent, parent, if_neg names.named, found, regular, Bool.false_eq_true, if_false]

end Volume

structure Spliced (fs : Fat32Fs) (position : Position) (file : FileDescriptor) (data old : List UInt8)
    (vfs' : VfsManager) (device' : Device) : Prop where
  content : (vfs'.readFileContent file.path).answer device' = .ok (splice old file.pos data)
  size : ((fs.view device').entry position).fileSize.toNat =
    max old.length (file.pos + data.length)
  stands : ∃ file', vfs'.fileTable.find? (fun other => other.fd = file.fd) = some file' ∧
    file'.pos = file.pos + data.length

/-- The data ends where a size can be recorded and is zero where `read_chain` does not reach, and at
position 0 the file is zero behind it. -/
structure Spliceable (fs : Fat32Fs) (file : FileDescriptor) (data old : List UInt8) : Prop where
  recordable : file.pos + data.length < 2 ^ 32
  reached : ∀ index, Volume.reach fs ≤ file.pos + index → byteAt data index = 0
  blank : file.pos = 0 → ∀ index, data.length ≤ index → byteAt old index = 0

theorem VfsManager.find_advance {vfs : VfsManager} {fd : Nat} {file file' : FileDescriptor}
    (search : vfs.fileTable.find? (fun other => other.fd = fd) = some file) (same : file'.fd = fd) :
    (vfs.advance fd file').fileTable.find? (fun other => other.fd = fd) = some file' := by
  simp only [VfsManager.advance]
  generalize vfs.fileTable = files at search
  induction files with
  | nil => cases search
  | cons first rest ih =>
      by_cases here : first.fd = fd
      · simp [List.findIdx_cons, here, same]
      · rw [List.find?_cons_of_neg (by simpa using here)] at search
        simp [List.findIdx_cons, here, ih search]

namespace Volume

variable {fs : Fat32Fs} {volume : Volume}

theorem byteAt_unreached (geometry : fs.Geometry) (shaped : volume.Shaped fs)
    {entry : Fat32DirEntry} {clusters : List Nat}
    (chain : volume.Chain fs entry.firstCluster clusters) {index : Nat} (beyond : reach fs ≤ index) :
    byteAt (volume.bytesOf entry) index = 0 := by
  rw [byteAt_bytesOf geometry chain, byteAt_visible shaped, if_neg (Nat.not_lt.mpr beyond), ite_self]

section Written

variable {file : FileDescriptor} {data : List UInt8} {position : Position} {clusters tail : List Nat}
  (geometry : fs.Geometry) (shaped : volume.Shaped fs) (sound : volume.Sound fs)
  (extension : volume.Extension fs (Fat32Fs.visible clusters) (volume.patch file data) tail)
  (live : volume.Live fs (.slot position))
  (regular : (volume.entry position).isDirectory = false)
  (start : (volume.entry position).firstCluster = file.cluster) (present : 2 ≤ file.cluster)
  (size : (volume.entry position).fileSize.toNat = file.size) (inside : file.pos ≤ file.size)
  (owned : volume.Owns fs (.slot position) clusters)
include shaped sound extension live regular size owned

theorem written_size : ((volume.written fs file data position clusters tail).entry
      position).fileSize.toNat = max file.size (file.pos + data.length) ↔
    file.pos + data.length < 2 ^ 32 := by
  have bound : file.size < 2 ^ 32 := size ▸ UInt32.toNat_lt _
  have made : ((volume.written fs file data position clusters tail).entry position).fileSize.toNat =
      if sizeAfter file data > 0 then sizeAfter file data else file.size := by
    rw [written_entry_same extension shaped live (live.outside sound live regular owned)]
    split
    · rw [resized, UInt32.toNat_ofNat', sizeAfter, wrap32, Nat.mod_mod]
    · exact size
  have known := Session.upToDate_iff bound bound made
  constructor
  · intro recorded
    exact (known.mp ⟨recorded, recorded ▸ Nat.le_max_left _ _⟩).1
  · intro fits
    exact (known.mpr ⟨fits, .inl rfl⟩).1

include geometry start present inside

theorem written_splices_iff
    (fits : fs.clustersNeeded (volume.patch file data) ≤ clusters.length + 1) :
    ((volume.written fs file data position clusters tail).bytesOf
          ((volume.written fs file data position clusters tail).entry position) =
        splice (volume.bytesOf (volume.entry position)) file.pos data ∧
      ((volume.written fs file data position clusters tail).entry position).fileSize.toNat =
        max file.size (file.pos + data.length)) ↔
      Spliceable fs file data (volume.bytesOf (volume.entry position)) := by
  have sized := written_size shaped sound extension live regular size owned
  have same : ((volume.written fs file data position clusters tail).entry position).firstCluster =
      file.cluster := by
    rw [written_entry_same extension shaped live (live.outside sound live regular owned)]
    split
    · exact start
    · exact start
  have chain : volume.Chain fs (volume.entry position).firstCluster clusters := owned
  have long : (volume.bytesOf (volume.entry position)).length = file.size := by
    rw [bytesOf, length_fit, size]
  have before := @byteAt_splice_grown _ data _ (long ▸ inside)
  have patched := byteAt_patch geometry chain start size data
  have after := byteAt_written extension sound live regular start present owned geometry shaped fits
    same
  generalize wasEq : volume.bytesOf (volume.entry position) = old at *
  generalize volume.written fs file data position clusters tail = volume' at *
  have unreached : ∀ index, reach fs ≤ index → byteAt old index = 0 := fun index beyond =>
    wasEq ▸ byteAt_unreached geometry shaped chain beyond
  constructor
  · rintro ⟨content, recorded⟩
    rw [content, recorded] at after
    refine ⟨sized.mp recorded, fun index beyond => ?_, fun first index behind => ?_⟩
    · by_cases within : index < data.length
      · have spliced := before (file.pos + index)
        rw [after, if_neg (by omega), if_pos (by omega), Nat.add_sub_cancel_left] at spliced
        exact spliced.symm
      · exact byteAt_beyond (Nat.le_of_not_lt within)
    · have spliced := before index
      have outside : ¬(file.pos ≤ index ∧ index < file.pos + data.length) := by omega
      rw [after, patched, if_neg outside, if_pos first, ite_self, if_neg outside] at spliced
      exact spliced.symm
  · rintro ⟨recordable, reached, blank⟩
    have recorded := sized.mpr recordable
    refine ⟨bytes_ext ?_ fun index bound => ?_, recorded⟩
    · rw [bytesOf, length_fit, recorded, length_splice_grown (long ▸ inside), long]
    · rw [length_splice_grown (long ▸ inside), long] at bound
      rw [after, before, patched, recorded]
      by_cases near : index < reach fs
      · rw [if_pos ⟨bound, near⟩]
        split
        · rfl
        · rename_i outside
          by_cases first : file.pos = 0
          · rw [if_pos first, blank first index (by omega)]
          · rw [if_neg first]
      · rw [if_neg fun both => near both.2]
        split
        · rw [reached (index - file.pos) (by omega)]
        · rw [unreached index (Nat.le_of_not_lt near)]

end Written

end Volume

section PositionedWrite

variable {fs : Fat32Fs} (geometry : fs.Geometry) {vfs vfs' : VfsManager} (mounted : Mounted fs vfs)
  {device device' : Device} (healthy : device.Healthy) (sound : (fs.view device).Sound fs)
  {fd : Nat} {file : FileDescriptor} {position : Position}
  (search : vfs.fileTable.find? (fun other => other.fd = fd) = some file)
  (writing : file.mode = .write ∨ file.mode = .create)
  (names : (fs.view device).Names fs file.path position)
  (regular : ((fs.view device).entry position).isDirectory = false)
  (start : ((fs.view device).entry position).firstCluster = file.cluster) {clusters : List Nat}
  (chain : (fs.view device).Chain fs file.cluster clusters)
include geometry mounted healthy sound search writing names regular start chain

theorem write_outcomes (data : List UInt8) :
    ((Fat32Fs.visible clusters).length < fs.clustersNeeded ((fs.view device).patch file data) ∧
        (fs.view device).firstFree fs = none ∧
        ∃ device', vfs.write fd data device = (.error (.error .ioError) device', vfs)) ∨
      ∃ tail device', (fs.view device).Extension fs (Fat32Fs.visible clusters)
          ((fs.view device).patch file data) tail ∧
        vfs.write fd data device =
          (.ok data.length device', vfs.advance fd { file with
            pos := file.pos + data.length, size := Volume.sizeAfter file data }) ∧
        fs.view device' = (fs.view device).written fs file data position clusters tail ∧
        Session.Ready fs ⟨vfs.advance fd { file with
          pos := file.pos + data.length, size := Volume.sizeAfter file data }, device'⟩ := by
  have owned : (fs.view device).Owns fs (.slot position) clusters := by
    rw [Volume.Owns, Volume.start, start]
    exact chain
  have canWrite : file.mode ≠ .read := by
    rcases writing with mode | mode
    · rw [mode]
      decide
    · rw [mode]
      decide
  have careful : Session.Careful fs vfs (fs.view device) (.write fd data) := by
    intro other found _
    obtain rfl : file = other := Option.some.inj (search.symm.trans found)
    have current : (fs.view device).Current fs file := ⟨position, names, regular, start⟩
    exact ⟨current.writable geometry sound, names.proper⟩
  obtain ⟨device', ran, _, holds⟩ := mounted.write_runs geometry
    (Session.write_ready geometry sound careful) healthy rfl
  have before : Session.Ready fs ⟨vfs, device⟩ := ⟨mounted, healthy, sound⟩
  have ready := Session.step_ready geometry before careful
  rcases Volume.write_current geometry sound search canWrite names regular start owned data with
    ⟨short, full, refused⟩ | ⟨tail, extension, outcome⟩
  · rw [refused] at ran
    exact .inl ⟨short, full, device', ran⟩
  · rw [outcome] at ran holds
    simp only [Session.step, ran] at ready
    exact .inr ⟨tail, device', extension, ran, holds, ready⟩

theorem write_leaves {data : List UInt8} {count : Nat}
    (wrote : vfs.write fd data device = (.ok count device', vfs')) : ∃ tail,
      (fs.view device).Extension fs (Fat32Fs.visible clusters) ((fs.view device).patch file data)
        tail ∧
      fs.view device' = (fs.view device).written fs file data position clusters tail ∧
      vfs' = vfs.advance fd { file with
        pos := file.pos + data.length, size := Volume.sizeAfter file data } ∧
      Session.Ready fs ⟨vfs', device'⟩ := by
  rcases write_outcomes geometry mounted healthy sound search writing names regular start chain data
    with ⟨_, _, after, refused⟩ | ⟨tail, after, extension, ran, holds, ready⟩
  · rw [wrote] at refused
    cases refused
  · rw [wrote, Prod.mk.injEq, EStateM.Result.ok.injEq] at ran
    obtain ⟨⟨_, rfl⟩, rfl⟩ := ran
    exact ⟨tail, extension, holds, rfl, ready⟩

/-- A write that needs at most one new cluster splices its data into the file exactly when the data
ends where a size can be recorded, is zero where `read_chain` does not reach, and, at position 0,
leaves nothing but zeros of the file behind it. -/
theorem positioned_write_iff (present : 2 ≤ file.cluster)
    (size : ((fs.view device).entry position).fileSize.toNat = file.size)
    (inside : file.pos ≤ file.size) {data : List UInt8}
    (fits : fs.clustersNeeded ((fs.view device).patch file data) ≤ clusters.length + 1)
    {old : List UInt8} (reads : (vfs.readFileContent file.path).answer device = .ok old)
    {count : Nat} (wrote : vfs.write fd data device = (.ok count device', vfs')) :
    Spliced fs position file data old vfs' device' ↔ Spliceable fs file data old := by
  have shaped := Fat32Fs.length_view_data geometry device
  have live := names.live geometry sound regular
  have owned : (fs.view device).Owns fs (.slot position) clusters := by
    rw [Volume.Owns, Volume.start, start]
    exact chain
  have was : old = (fs.view device).bytesOf ((fs.view device).entry position) := by
    rw [Disk.answer, mounted.readFileContent_eq geometry healthy sound names.proper,
      Volume.readContent_names names regular] at reads
    exact (Except.ok.inj reads).symm
  have long : old.length = file.size := by
    rw [was, Volume.bytesOf, length_fit, size]
  obtain ⟨tail, extension, holds, advanced, ready⟩ :=
    write_leaves geometry mounted healthy sound search writing names regular start chain wrote
  have splices := Volume.written_splices_iff geometry shaped sound extension live regular start
    present size inside owned fits
  have same := Volume.written_sameDirs extension shaped live sound regular owned
  have kind := Volume.written_entry_same extension shaped live
    (live.outside sound live regular owned)
  rw [← holds] at splices same kind
  have names' := same.names geometry sound names
  have regular' : ((fs.view device').entry position).isDirectory = false := by
    rw [kind]
    split
    · exact regular
    · exact regular
  have reread : (vfs'.readFileContent file.path).answer device' =
      .ok ((fs.view device').bytesOf ((fs.view device').entry position)) := by
    rw [Disk.answer, ready.mounted.readFileContent_eq geometry ready.healthy ready.sound names'.proper,
      Volume.readContent_names names' regular']
    rfl
  have stands : vfs'.fileTable.find? (fun other => other.fd = file.fd) = some { file with
      pos := file.pos + data.length, size := Volume.sizeAfter file data } := by
    obtain rfl : file.fd = fd := by simpa using List.find?_some search
    rw [advanced]
    exact VfsManager.find_advance search rfl
  rw [was, ← splices, ← was]
  constructor
  · rintro ⟨content, recorded, _⟩
    rw [reread] at content
    rw [long] at recorded
    exact ⟨Except.ok.inj content, recorded⟩
  · rintro ⟨content, recorded⟩
    refine ⟨?_, ?_, _, stands, rfl⟩
    · rw [reread, content]
    · rw [recorded, long]

end PositionedWrite

/-! A descriptor at the front of `/F`, which holds three bytes. -/

def frontDescriptor : FileDescriptor := ⟨1, [0x2F, 0x46], .write, 0, 3, 5⟩

def frontVfs : VfsManager := { blankSession.vfs with fileTable := [frontDescriptor] }

theorem front_names : nestedVolume.Names smallFs frontDescriptor.path (2, 1) ∧
    (nestedVolume.entry (2, 1)).isDirectory = false ∧
    (nestedVolume.entry (2, 1)).firstCluster = frontDescriptor.cluster ∧
    (nestedVolume.entry (2, 1)).fileSize.toNat = frontDescriptor.size := by
  refine ⟨⟨by decide, by decide, 2, by decide, by decide⟩, ?_⟩
  decide

theorem front_chain : nestedVolume.Chain smallFs 5 [5] := by
  have links : nestedVolume.fat 5 = fat32Eoc := by decide
  exact Volume.chain_single (by decide) links.ge

theorem front_careful {device : Device} (holds : smallFs.view device = nestedVolume)
    (sound : (smallFs.view device).Sound smallFs) (data : List UInt8) :
    Session.Careful smallFs frontVfs (smallFs.view device) (.write 1 data) := by
  obtain ⟨names, regular, start, _⟩ := front_names
  rw [← holds] at names regular start
  intro other found _
  obtain rfl : frontDescriptor = other := Option.some.inj found
  have current : (smallFs.view device).Current smallFs frontDescriptor := ⟨_, names, regular, start⟩
  exact ⟨current.writable smallFs_geometry sound, names.proper⟩

theorem front_stepped {device : Device} (healthy : device.Healthy)
    (holds : smallFs.view device = nestedVolume) (sound : (smallFs.view device).Sound smallFs)
    (data : List UInt8) (count : Nat)
    (wrote : (nestedVolume.write smallFs frontVfs 1 data).1 = .ok count) : ∃ device',
      frontVfs.write 1 data device =
          (.ok count device', (nestedVolume.write smallFs frontVfs 1 data).2.1) ∧
        smallFs.view device' = (nestedVolume.write smallFs frontVfs 1 data).2.2 ∧
        Session.Ready smallFs ⟨(nestedVolume.write smallFs frontVfs 1 data).2.1, device'⟩ := by
  have ready : Session.Ready smallFs ⟨frontVfs, device⟩ := ⟨⟨rfl, rfl⟩, healthy, sound⟩
  have careful := front_careful holds sound data
  obtain ⟨device', ran, _, holds'⟩ := ready.mounted.write_runs smallFs_geometry
    (Session.write_ready smallFs_geometry sound careful) healthy rfl
  have stepped := Session.step_ready smallFs_geometry ready careful
  simp only [Session.step, ran] at stepped
  rw [holds, wrote] at ran stepped
  rw [holds] at holds'
  exact ⟨device', ran, holds', stepped⟩

theorem front_written (data : List UInt8) (count : Nat)
    (wrote : (nestedVolume.write smallFs frontVfs 1 data).1 = .ok count) : ∃ device',
      frontVfs.write 1 data nestedSession.device =
          (.ok count device', (nestedVolume.write smallFs frontVfs 1 data).2.1) ∧
        smallFs.view device' = (nestedVolume.write smallFs frontVfs 1 data).2.2 ∧
        Session.Ready smallFs ⟨(nestedVolume.write smallFs frontVfs 1 data).2.1, device'⟩ := by
  obtain ⟨⟨_, healthy, sound⟩, _, holds⟩ := nested_ready
  exact front_stepped healthy holds sound data count wrote

theorem positioned_write_front : ∃ vfs' device',
    frontVfs.write 1 [7, 8, 9] nestedSession.device = (.ok 3 device', vfs') ∧
      (Spliced smallFs (2, 1) frontDescriptor [7, 8, 9] [1, 2, 3] vfs' device' ↔
        Spliceable smallFs frontDescriptor [7, 8, 9] [1, 2, 3]) := by
  obtain ⟨⟨_, healthy, sound⟩, _, holds⟩ := nested_ready
  have mounted : Mounted smallFs frontVfs := ⟨rfl, rfl⟩
  obtain ⟨device', ran, _, _⟩ := front_written [7, 8, 9] 3 (by decide)
  obtain ⟨names, regular, start, size⟩ := front_names
  have chain := front_chain
  have fits : smallFs.clustersNeeded (nestedVolume.patch frontDescriptor [7, 8, 9]) ≤ 2 := by
    decide
  have content : nestedVolume.readContent smallFs frontDescriptor.path = .ok [1, 2, 3] := by
    decide
  rw [← holds] at names regular start size chain fits content
  have reads : (frontVfs.readFileContent frontDescriptor.path).answer nestedSession.device =
      .ok [1, 2, 3] := by
    rw [Disk.answer, mounted.readFileContent_eq smallFs_geometry healthy sound names.proper, content]
    rfl
  exact ⟨_, device', ran, positioned_write_iff smallFs_geometry mounted healthy sound rfl (.inl rfl)
    names regular start chain (by decide) size (by decide) fits reads ran⟩

/-- One byte written at the front of the file erases the two others. -/
theorem front_write_erases : nestedVolume.Names smallFs frontDescriptor.path (2, 1) ∧
    (nestedVolume.entry (2, 1)).isDirectory = false ∧
    (nestedVolume.entry (2, 1)).firstCluster = frontDescriptor.cluster ∧
    (nestedVolume.entry (2, 1)).fileSize.toNat = frontDescriptor.size ∧
    nestedVolume.readContent smallFs frontDescriptor.path = .ok [1, 2, 3] ∧
    smallFs.view nestedSession.device = nestedVolume ∧ ∃ vfs' device',
      frontVfs.write 1 [9] nestedSession.device = (.ok 1 device', vfs') ∧
        (vfs'.readFileContent frontDescriptor.path).answer device' = .ok [9, 0, 0] ∧
        ¬Spliced smallFs (2, 1) frontDescriptor [9] [1, 2, 3] vfs' device' := by
  obtain ⟨_, _, holds⟩ := nested_ready
  obtain ⟨names, regular, start, size⟩ := front_names
  obtain ⟨device', ran, holds', ready⟩ := front_written [9] 1 (by decide)
  have proper : (smallFs.view device').ProperPath smallFs frontDescriptor.path := by
    rw [holds']
    decide
  have content : (smallFs.view device').readContent smallFs frontDescriptor.path = .ok [9, 0, 0] := by
    rw [holds']
    decide
  generalize (nestedVolume.write smallFs frontVfs 1 [9]).2.1 = vfs' at ran ready
  have reread : (vfs'.readFileContent frontDescriptor.path).answer device' = .ok [9, 0, 0] := by
    rw [Disk.answer, ready.mounted.readFileContent_eq smallFs_geometry ready.healthy ready.sound
      proper, content]
    rfl
  refine ⟨names, regular, start, size, by decide, holds, vfs', device', ran, reread, ?_⟩
  intro spliced
  have known := spliced.content
  rw [reread] at known
  exact absurd known (by decide)

end ArcadiaOs.Fs
