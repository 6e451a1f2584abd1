import ArcadiaOs.Fs.Mount
import ArcadiaOs.Fs.WellFormed
import ArcadiaOs.Tools.ImageVolume

/-!
What the tool has done once it reports success: the file is stored in clusters that were free,
and its entry stands in the slot where the driver would put it.  Only the bytes of an entry without
an extension do not fit the slot.
-/

namespace ArcadiaOs.Tools

open Lib Fs

theorem Tool.bind_ok {α β : Type} {action : Tool α} {next : α → Tool β} {value : β} :
    (action >>= next) = .ok value ↔ ∃ middle, action = .ok middle ∧ next middle = .ok value := by
  cases action with
  | error reason => simp [bind, Except.bind]
  | ok middle => simp [bind, Except.bind]

theorem readLe_ok {width off value : Nat} {data : List UInt8} (ran : readLe width data off = .ok value) :
    off + width ≤ data.length ∧ value = ofLeBytes (bytesAt data off width) := by
  rw [readLe] at ran
  split at ran
  · rename_i fits
    cases ran
    exact ⟨fits, rfl⟩
  · cases ran

theorem getByte_ok {index value : Nat} {data : List UInt8} (ran : getByte data index = .ok value) :
    index < data.length ∧ value = (byteAt data index).toNat := by
  rw [getByte] at ran
  cases found : data[index]? with
  | none =>
      rw [found] at ran
      cases ran
  | some byte =>
      rw [found] at ran
      cases ran
      refine ⟨(List.getElem?_eq_some_iff.mp found).1, ?_⟩
      rw [byteAt, List.getD_eq_getElem?_getD, found, Option.getD_some]

theorem getByte_inside {index : Nat} {data : List UInt8} (inside : index < data.length) :
    getByte data index = .ok (byteAt data index).toNat := by
  rw [getByte, byteAt, List.getD_eq_getElem?_getD, List.getElem?_eq_getElem inside]
  rfl

theorem setSlice_append {front old back part : List UInt8} {start stop : Nat}
    (first : start = front.length) (last : stop = start + old.length) :
    setSlice (front ++ (old ++ back)) start stop part = front ++ (part ++ back) := by
  have long : stop ≤ (front ++ (old ++ back)).length := by
    rw [List.length_append, List.length_append]
    omega
  rw [setSlice, sliceIndex_inside (by omega), sliceIndex_inside long, Nat.max_eq_right (by omega),
    last, first, List.take_left, List.drop_length_add_append, List.drop_left, List.append_assoc]

theorem setSlice_zeros {front : List UInt8} {count start stop : Nat} (behind : front.length ≤ start)
    (two : stop = start + 2) (inside : stop ≤ front.length + count) :
    setSlice (front ++ zeros count) start stop [0, 0] = front ++ zeros count := by
  have split : front ++ zeros count = (front ++ zeros (start - front.length)) ++
      ([0, 0] ++ zeros (count - (start - front.length) - 2)) := by
    have parts : zeros count = zeros (start - front.length) ++
        (zeros 2 ++ zeros (count - (start - front.length) - 2)) := by
      simp only [zeros, List.replicate_append_replicate]
      congr 1
      omega
    rw [parts, List.append_assoc]
    rfl
  rw [split, setSlice_append (by rw [List.length_append, length_zeros]; omega) two]

theorem setByte_zero {front : List UInt8} {count index : Nat} (behind : front.length ≤ index)
    (inside : index < front.length + count) :
    setByte (front ++ zeros count) index 0 = .ok (front ++ zeros count) := by
  have same : (front ++ zeros count).set index 0 = front ++ zeros count := by
    rw [List.set_append_right _ _ behind, zeros, List.set_replicate_self]
  rw [setByte, if_pos (by rw [List.length_append, length_zeros]; exact inside), same]
  rfl

theorem splice_zeros {front part : List UInt8} (before : Nat) {count offset : Nat}
    (place : offset = front.length + before) (fits : before + part.length ≤ count) :
    splice (front ++ zeros count) offset part =
      front ++ zeros before ++ part ++ zeros (count - before - part.length) := by
  have taken : (front ++ zeros count).take offset = front ++ zeros before := by
    rw [place, List.take_length_add_append, zeros, List.take_replicate, Nat.min_eq_left (by omega)]
    rfl
  have dropped : (front ++ zeros count).drop (offset + part.length) =
      zeros (count - before - part.length) := by
    rw [place, Nat.add_assoc, List.drop_length_add_append, zeros, List.drop_replicate, Nat.sub_sub]
    rfl
  rw [splice, taken, dropped]

theorem buildEntry_ok {shortName shortExt front dirEntry : List UInt8}
    {firstCluster fileSize extra : Nat}
    (begun : setByte (setSlice (setSlice (zeros 32) 0 8 shortName) 8 11 shortExt) 11 0x20 =
      .ok (front ++ zeros (20 + extra))) (long : front.length = 12)
    (ran : buildEntry shortName shortExt firstCluster fileSize = .ok dirEntry) :
    firstCluster < 2 ^ 16 ∧ fileSize < 2 ^ 32 ∧ dirEntry = front ++ zeros 14 ++
      leBytes 2 firstCluster ++ leBytes 4 fileSize ++ zeros extra := by
  have blank (start stop : Nat) (behind : 12 ≤ start) (two : stop = start + 2) (inside : stop ≤ 32) :
      setSlice (front ++ zeros (20 + extra)) start stop [0, 0] = front ++ zeros (20 + extra) :=
    setSlice_zeros (by omega) two (by omega)
  have time : setSlice (front ++ zeros (20 + extra)) 14 16 [0, 0] = _ :=
    blank 14 16 (by omega) rfl (by omega)
  have date : setSlice (front ++ zeros (20 + extra)) 16 18 [0, 0] = _ :=
    blank 16 18 (by omega) rfl (by omega)
  have access : setSlice (front ++ zeros (20 + extra)) 18 20 [0, 0] = _ :=
    blank 18 20 (by omega) rfl (by omega)
  have high : setSlice (front ++ zeros (20 + extra)) 20 22 [0, 0] = _ :=
    blank 20 22 (by omega) rfl (by omega)
  have modifyTime : setSlice (front ++ zeros (20 + extra)) 22 24 [0, 0] = _ :=
    blank 22 24 (by omega) rfl (by omega)
  have modifyDate : setSlice (front ++ zeros (20 + extra)) 24 26 [0, 0] = _ :=
    blank 24 26 (by omega) rfl (by omega)
  have reserved : setByte (front ++ zeros (20 + extra)) 12 0 = _ := setByte_zero (by omega) (by omega)
  have fine : setByte (front ++ zeros (20 + extra)) 13 0 = _ := setByte_zero (by omega) (by omega)
  simp only [buildEntry, Tool.bind_ok, begun, Except.ok.injEq, exists_eq_left', reserved, fine, time,
    date, access, high, modifyTime, modifyDate] at ran
  obtain ⟨_, first, sized⟩ := ran
  obtain ⟨low, _, rfl⟩ := writeLe_ok first
  obtain ⟨small, _, rfl⟩ := writeLe_ok sized
  have cluster : splice (front ++ zeros (20 + extra)) 26 (leBytes 2 firstCluster) =
      front ++ zeros 14 ++ leBytes 2 firstCluster ++ zeros (4 + extra) := by
    rw [splice_zeros 14 (by omega) (by rw [length_leBytes]; omega), length_leBytes]
    congr 2
    omega
  have size : splice (front ++ zeros 14 ++ leBytes 2 firstCluster ++ zeros (4 + extra)) 28
        (leBytes 4 fileSize) =
      front ++ zeros 14 ++ leBytes 2 firstCluster ++ leBytes 4 fileSize ++ zeros extra := by
    have place : 28 = (front ++ zeros 14 ++ leBytes 2 firstCluster).length + 0 := by
      simp only [List.length_append, length_zeros, length_leBytes]
      omega
    have nothing : zeros 0 = [] := rfl
    rw [splice_zeros 0 place (by rw [length_leBytes]; omega), length_leBytes, Nat.sub_zero,
      Nat.add_sub_cancel_left, nothing, List.append_nil]
  exact ⟨low, small, by rw [cluster, size]⟩

theorem buildEntry_three {shortName shortExt : List UInt8} (name : shortName.length = 8)
    (three : shortExt.length = 3) :
    setByte (setSlice (setSlice (zeros 32) 0 8 shortName) 8 11 shortExt) 11 0x20 =
      .ok (shortName ++ shortExt ++ [0x20] ++ zeros (20 + 0)) := by
  match shortName, name, shortExt, three with
  | [_, _, _, _, _, _, _, _], _, [_, _, _], _ => rfl

/-- Four blanks for the extension take up the place of the attributes as well. -/
theorem buildEntry_blanks {shortName : List UInt8} (name : shortName.length = 8) :
    setByte (setSlice (setSlice (zeros 32) 0 8 shortName) 8 11 [0x20, 0x20, 0x20, 0x20]) 11 0x20 =
      .ok (shortName ++ padded 3 [] ++ [0x20] ++ zeros (20 + 1)) := by
  match shortName, name with
  | [_, _, _, _, _, _, _, _], _ => rfl

theorem newEntry_toBytes (nameUpper : Path) {cluster size : Nat} (low : cluster < 2 ^ 16)
    (small : size < 2 ^ 32) : (VfsManager.newEntry nameUpper 0x20 cluster size).toBytes =
      (Fat32DirEntry.zeroed.setName83 nameUpper).name ++ (Fat32DirEntry.zeroed.setName83 nameUpper).ext ++
        [0x20] ++ zeros 14 ++ leBytes 2 cluster ++ leBytes 4 size := by
  have high : (UInt16.ofNat (cluster / 2 ^ 16)).toNat = 0 := by
    rw [Nat.div_eq_of_lt low]
    rfl
  have lows : (UInt16.ofNat cluster).toNat = cluster := by
    rw [UInt16.toNat_ofNat']
    exact Nat.mod_eq_of_lt low
  have sizes : (UInt32.ofNat size).toNat = size := by
    rw [UInt32.toNat_ofNat']
    exact Nat.mod_eq_of_lt small
  have shown : (VfsManager.newEntry nameUpper 0x20 cluster size).toBytes =
      (Fat32DirEntry.zeroed.setName83 nameUpper).name ++
        (Fat32DirEntry.zeroed.setName83 nameUpper).ext ++ [0x20, 0, 0] ++ leBytes 2 0 ++ leBytes 2 0 ++
        leBytes 2 0 ++ leBytes 2 (UInt16.ofNat (cluster / 2 ^ 16)).toNat ++ leBytes 2 0 ++ leBytes 2 0 ++
        leBytes 2 (UInt16.ofNat cluster).toNat ++ leBytes 4 (UInt32.ofNat size).toNat := rfl
  rw [shown, high, lows, sizes]
  simp only [List.append_assoc]
  rfl

theorem nameField_eq {width : Nat} {part : List UInt8} (fits : part.length ≤ width)
    (bytes : ∀ byte ∈ part, NameByte byte) : nameField width part = .ok (padded width part) := by
  have ascii : part.all (· < 0x80) = true := by
    refine List.all_eq_true.mpr fun byte member => decide_eq_true ?_
    exact (nameByte_facts byte (bytes byte member)).1
  have long : (part ++ List.replicate (width - part.length) 0x20).length ≤ width := by
    rw [List.length_append, List.length_replicate]
    omega
  rw [nameField, if_pos ascii, padded, List.take_of_length_le long, List.take_of_length_le fits]
  rfl

/-- The parts of a name with an extension, and the four blanks for a name without. -/
theorem shortNames_eq {base ext : List UInt8} (short : ShortName base ext) :
    shortNames (joinName base ext) = .ok (padded 8 base,
      if ext = [] then [0x20, 0x20, 0x20, 0x20] else padded 3 ext) := by
  have noDot (part : List UInt8) (bytes : ∀ byte ∈ part, NameByte byte) : (0x2E : UInt8) ∉ part :=
    fun member => (nameByte_facts _ (bytes _ member)).2.2.1.1 rfl
  have field := nameField_eq short.baseFits short.base_bytes
  rw [shortNames, joinName]
  by_cases empty : ext = []
  · rw [if_pos empty, if_pos empty, List.append_nil, List.splitOn_eq_singleton (noDot base short.base_bytes)]
    simp only [List.headD_cons, field]
    rfl
  · have extField := nameField_eq short.extFits short.ext_bytes
    rw [if_neg empty, if_neg empty, List.splitOn_append_cons_self_of_not_mem (noDot base short.base_bytes),
      List.splitOn_eq_singleton (noDot ext short.ext_bytes)]
    simp only [field, extField]
    rfl

theorem findFree_ok {fatData : List UInt8} {fatSizeBytes needed : Nat} {clusters held found : List Nat}
    (ran : findFree fatData fatSizeBytes needed clusters held = .ok found) : ∃ taken,
      found = held ++ taken ∧ taken.Sublist clusters ∧
        ∀ cluster ∈ taken, ∃ entry, readLe32 fatData (cluster * 4) = .ok entry ∧ entry % 2 ^ 28 = 0 := by
  induction clusters generalizing held with
  | nil =>
      cases ran
      exact ⟨[], (List.append_nil _).symm, List.Sublist.refl _, nofun⟩
  | cons cluster rest ih =>
      rw [findFree] at ran
      split at ran
      · cases ran
        exact ⟨[], (List.append_nil _).symm, List.nil_sublist _, nofun⟩
      · simp only [Tool.bind_ok] at ran
        obtain ⟨entry, read, ran⟩ := ran
        by_cases free : entry % 2 ^ 28 = 0
        · have here : ∀ other ∈ [cluster], ∃ entry, readLe32 fatData (other * 4) = .ok entry ∧
              entry % 2 ^ 28 = 0 := by
            intro other member
            rw [List.mem_singleton.mp member]
            exact ⟨entry, read, free⟩
          rw [if_pos free] at ran
          split at ran
          · cases ran
            exact ⟨[cluster], rfl, List.Sublist.cons_cons cluster (List.nil_sublist _), here⟩
          · obtain ⟨taken, rfl, sub, all⟩ := ih ran
            refine ⟨cluster :: taken, by rw [List.append_assoc]; rfl, sub.cons_cons cluster, ?_⟩
            intro other member
            rcases List.mem_cons.mp member with rfl | later
            · exact here _ (List.mem_singleton_self _)
            · exact all other later
        · rw [if_neg free] at ran
          split at ran
          · cases ran
            exact ⟨[], (List.append_nil _).symm, List.nil_sublist _, nofun⟩
          · obtain ⟨taken, rfl, sub, all⟩ := ih ran
            exact ⟨taken, rfl, sub.cons cluster, all⟩

theorem findSlot_ok {img : List UInt8} {rootOffset dirOffset : Int} {slots : List Nat}
    (ran : findSlot img rootOffset slots = .ok dirOffset) : ∃ front i back,
      slots = front ++ i :: back ∧ dirOffset = rootOffset + (i * 32 : Nat) ∧
      (∃ first, getByte (getSlice img dirOffset (dirOffset + 32)) 0 = .ok first ∧
        (first = 0x00 ∨ first = 0xE5)) ∧
      ∀ j ∈ front, ∃ first, getByte (getSlice img (rootOffset + (j * 32 : Nat))
        (rootOffset + (j * 32 : Nat) + 32)) 0 = .ok first ∧ ¬(first = 0x00 ∨ first = 0xE5) := by
  induction slots with
  | nil => cases ran
  | cons slot rest ih =>
      simp only [findSlot, Tool.bind_ok] at ran
      obtain ⟨first, read, ran⟩ := ran
      by_cases marked : first = 0x00 ∨ first = 0xE5
      · rw [if_pos marked] at ran
        cases ran
        exact ⟨[], slot, rest, rfl, rfl, ⟨first, read, marked⟩, nofun⟩
      · rw [if_neg marked] at ran
        obtain ⟨front, i, back, rfl, place, found, passed⟩ := ih ran
        refine ⟨slot :: front, i, back, rfl, place, found, fun j member => ?_⟩
        rcases List.mem_cons.mp member with rfl | later
        · exact ⟨first, read, marked⟩
        · exact passed j later

theorem length_setSlice {data : List UInt8} {start stop : Nat} (order : start ≤ stop)
    (inside : stop ≤ data.length) (part : List UInt8) :
    (setSlice data start stop part).length + (stop - start) = data.length + part.length := by
  rw [setSlice, sliceIndex_inside (by omega), sliceIndex_inside inside, Nat.max_eq_right order]
  simp only [List.length_append, List.length_take, List.length_drop]
  omega

/-! The boot sector. -/

theorem fromBytes_readFrom {sector : List UInt8} {bpb : Fat32Bpb}
    (accepted : Fat32Bpb.fromBytes sector = some bpb) : bpb = Fat32Bpb.readFrom sector := by
  simp only [Fat32Bpb.fromBytes] at accepted
  split at accepted
  · cases accepted
  split at accepted
  · cases accepted
  split at accepted
  · cases accepted
  split at accepted
  · exact (Option.some.inj accepted).symm
  · cases accepted

theorem imageDevice_boot (img : List UInt8) :
    ((imageDevice img).sector 0).val = bytesAt img 0 sectorSize := by
  simp only [imageDevice, Nat.zero_mul]

theorem mount_image {img : List UInt8} {fs : Fat32Fs} :
    Fat32Fs.mount 0 (imageDevice img) = .ok fs (imageDevice img) ↔ ∃ bpb,
      Fat32Bpb.fromBytes (bytesAt img 0 sectorSize) = some bpb ∧ fs = ⟨bpb, 0⟩ := by
  constructor
  · intro mounted
    rw [Fat32Fs.mount, Disk.bind_ok (Disk.mapErr_ok (readSector_boot rfl) _), UInt32.toNat_zero,
      imageDevice_boot] at mounted
    cases accepted : Fat32Bpb.fromBytes (bytesAt img 0 sectorSize) with
    | none =>
        rw [accepted] at mounted
        cases mounted
    | some bpb =>
        rw [accepted] at mounted
        cases mounted
        exact ⟨bpb, rfl, rfl⟩
  · rintro ⟨bpb, accepted, rfl⟩
    rw [← imageDevice_boot] at accepted
    exact mount_boot rfl rfl accepted

theorem toNat_u16At {img : List UInt8} {offset : Nat} (inside : offset + 2 ≤ sectorSize) :
    (u16At (bytesAt img 0 sectorSize) offset).toNat = ofLeBytes (bytesAt img offset 2) := by
  have bound := ofLeBytes_lt (bytesAt img offset 2)
  rw [length_bytesAt] at bound
  rw [u16At, bytesAt_bytesAt inside, Nat.zero_add, UInt16.toNat_ofNat']
  exact Nat.mod_eq_of_lt bound

theorem toNat_u32At {img : List UInt8} {offset : Nat} (inside : offset + 4 ≤ sectorSize) :
    (u32At (bytesAt img 0 sectorSize) offset).toNat = ofLeBytes (bytesAt img offset 4) := by
  have bound := ofLeBytes_lt (bytesAt img offset 4)
  rw [length_bytesAt] at bound
  rw [u32At, bytesAt_bytesAt inside, Nat.zero_add, UInt32.toNat_ofNat']
  exact Nat.mod_eq_of_lt bound

theorem byteAt_boot {img : List UInt8} {offset : Nat} (inside : offset < sectorSize) :
    byteAt (bytesAt img 0 sectorSize) offset = byteAt img offset := by
  rw [byteAt_bytesAt, if_pos inside, Nat.zero_add]

theorem readBpb_eq {img : List UInt8} {fs : Fat32Fs} (long : sectorSize ≤ img.length)
    (mounted : Fat32Fs.mount 0 (imageDevice img) = .ok fs (imageDevice img)) :
    readBpb img = .ok (toolBpb fs) := by
  obtain ⟨bpb, accepted, rfl⟩ := mount_image.mp mounted
  obtain rfl := fromBytes_readFrom accepted
  rw [sectorSize] at long
  have word {offset : Nat} (inside : offset + 2 ≤ sectorSize) : readLe16 img offset =
      .ok (u16At (bytesAt img 0 sectorSize) offset).toNat := by
    rw [readLe16, readLe, if_pos (by rw [sectorSize] at inside; omega), toNat_u16At inside]
    rfl
  have double {offset : Nat} (inside : offset + 4 ≤ sectorSize) : readLe32 img offset =
      .ok (u32At (bytesAt img 0 sectorSize) offset).toNat := by
    rw [readLe32, readLe, if_pos (by rw [sectorSize] at inside; omega), toNat_u32At inside]
    rfl
  have byte {offset : Nat} (inside : offset < sectorSize) : getByte img offset =
      .ok (byteAt (bytesAt img 0 sectorSize) offset).toNat := by
    rw [byteAt_boot inside, getByte_inside (by rw [sectorSize] at inside; omega)]
  rw [readBpb, word (by decide), byte (by decide), word (by decide), byte (by decide),
    word (by decide), word (by decide), double (by decide), double (by decide), double (by decide)]
  simp only [bind, Except.bind, pure, Except.pure, toolBpb, Fat32Bpb.readFrom]

/-- A FAT32 image with two tables and 512-byte sectors that the driver mounts. -/
structure WellFormedImage (fs : Fat32Fs) (img : List UInt8) : Prop extends Whole fs img where
  mounts : Fat32Fs.mount 0 (imageDevice img) = .ok fs (imageDevice img)
  formed : WellFormed fs (fs.view (imageDevice img))

theorem Whole.bootInside {fs : Fat32Fs} {img : List UInt8} (whole : Whole fs img) :
    sectorSize ≤ img.length := by
  obtain ⟨_, _, second, _, _, boot⟩ := whole.areas
  have tables := whole.tables_inside
  rw [sectorSize]
  omega

theorem clustersNeeded_ok {fs : Fat32Fs} {img fileData : List UInt8} (whole : Whole fs img)
    {needed : Nat} (ran : (toolBpb fs).clustersNeeded fileData = .ok needed) : needed =
      max 1 ((fileData.length + fs.bpb.clusterSizeBytes - 1) / fs.bpb.clusterSizeBytes) := by
  have some := whole.geometry.clusterSize_pos
  rw [Bpb.clustersNeeded, toolBpb_clusterSize, if_neg some.ne'] at ran
  generalize (fileData.length + fs.bpb.clusterSizeBytes - 1) / fs.bpb.clusterSizeBytes = count at ran ⊢
  cases ran
  split
  · omega
  · omega

theorem clusterRange_valid {fs : Fat32Fs} {img : List UInt8} (whole : Whole fs img) {cluster : Nat}
    (member : cluster ∈ (toolBpb fs).clusterRange) : fs.Valid cluster := by
  rw [Bpb.clusterRange, List.mem_range'_1] at member
  have same : ((toolBpb fs).totalSectors32 - (toolBpb fs).dataStart) / (toolBpb fs).sectorsPerCluster =
      fs.bpb.totalClusters := by
    rw [Fat32Bpb.totalClusters, Fat32Bpb.dataSectors, whole.geometry.dataStart]
    rfl
  rw [same] at member
  exact ⟨member.1, by omega⟩

theorem free_of_read {fs : Fat32Fs} {img : List UInt8} (whole : Whole fs img) {cluster entry : Nat}
    (valid : fs.Valid cluster)
    (read : readLe32 (getSlice img (toolBpb fs).fatOffset
      ((toolBpb fs).fatOffset + (toolBpb fs).fatSizeBytes)) (cluster * 4) = .ok entry)
    (free : entry % 2 ^ 28 = 0) : (fs.view (imageDevice img)).fat cluster = 0 := by
  have inside := whole.entry_inside valid
  obtain ⟨_, rfl⟩ := readLe_ok read
  rw [← Int.natCast_add, getSlice_nat, Nat.add_sub_cancel_left] at free
  have same : bytesAt (slice img (toolBpb fs).fatOffset (toolBpb fs).fatSizeBytes) (cluster * 4) 4 =
      bytesAt img ((toolBpb fs).fatOffset + cluster * 4) 4 := by
    refine bytesAt_congr fun index bound => ?_
    rw [byteAt_slice, if_pos (by omega), Nat.add_assoc]
  rw [whole.view_fat valid, ← same, free]

/-- The tool takes a slot where the driver does. -/
theorem vacant_iff {fs : Fat32Fs} {img img' : List UInt8} {volume : Volume} (whole : Whole fs img)
    (shows : Shows fs img img' volume) {cluster i : Nat} (valid : fs.Valid cluster)
    (bound : fs.InCluster i) {first : Nat}
    (read : getByte (getSlice img' ((toolBpb fs).imgOffset cluster + (i * 32 : Nat))
      ((toolBpb fs).imgOffset cluster + (i * 32 : Nat) + 32)) 0 = .ok first) :
    judgeVacant (volume.entry (cluster, i)) =
      if first = 0x00 ∨ first = 0xE5 then .take else .skip := by
  have fits := bound.fits
  rw [← toolBpb_clusterSize, entrySize] at fits
  have cast : ((toolBpb fs).imgOffset cluster : Int) + (i * 32 : Nat) + 32 =
      ((toolBpb fs).imgOffset cluster + i * 32 + 32 : Nat) := by omega
  rw [cast, ← Int.natCast_add, getSlice_nat, Nat.add_sub_cancel_left] at read
  obtain ⟨_, rfl⟩ := getByte_ok read
  have name : byteAt (volume.entry (cluster, i)).name 0 =
      byteAt (slice img' ((toolBpb fs).imgOffset cluster + i * 32) 32) 0 := by
    rw [Volume.entry, slotAt, Fat32DirEntry.readAt, entrySize, byteAt_bytesAt, if_pos (by decide),
      shows.data_eq whole valid, byteAt_bytesAt, if_pos (by omega), byteAt_slice, if_pos (by decide),
      Nat.add_assoc]
  have mark (value : UInt8) : decide (byteAt (slice img' ((toolBpb fs).imgOffset cluster + i * 32) 32) 0 =
      value) = decide ((byteAt (slice img' ((toolBpb fs).imgOffset cluster + i * 32) 32) 0).toNat =
      value.toNat) := decide_eq_decide.mpr UInt8.toNat_inj.symm
  rw [judgeVacant, Fat32DirEntry.isEnd, Fat32DirEntry.isDeleted, name, mark, mark]
  by_cases marked : (byteAt (slice img' ((toolBpb fs).imgOffset cluster + i * 32) 32) 0).toNat = 0x00 ∨
      (byteAt (slice img' ((toolBpb fs).imgOffset cluster + i * 32) 32) 0).toNat = 0xE5
  · rw [if_pos marked, if_pos]
    simpa using marked
  · rw [if_neg marked, if_neg]
    simpa using marked

abbrev stored (fs : Fat32Fs) (img : List UInt8) (clusters : List Nat) (fileData : List UInt8) : Volume :=
  (fs.view (imageDevice img)).store fs clusters [] fileData

abbrev fileEntry (name : Path) (cluster : Nat) (fileData : List UInt8) : Fat32DirEntry :=
  VfsManager.newEntry (toUpper83 name) 0x20 cluster fileData.length

/-- What the tool has done: the file is stored in free clusters, and its entry is put where
`add_entry` puts it, unless the name has no extension, when it does not fit there. -/
structure Inserted (fs : Fat32Fs) (img img' : List UInt8) (name : Path) (fileData : List UInt8)
    (clusters : List Nat) (first : Nat) (position : Position) : Prop where
  placed : (fs.view (imageDevice img)).Placed fs (stored fs img clusters fileData) first clusters
  count : clusters.length =
    max 1 ((fileData.length + fs.bpb.clusterSizeBytes - 1) / fs.bpb.clusterSizeBytes)
  low : first < 2 ^ 16
  small : fileData.length < 2 ^ 32
  put : (stored fs img clusters fileData).putEntry fs fs.bpb.rootCluster.toNat
    (fileEntry name first fileData) = (true,
      (stored fs img clusters fileData).setEntry position (fileEntry name first fileData))
  shows : 0x2E ∈ name → Shows fs img img'
    ((stored fs img clusters fileData).setEntry position (fileEntry name first fileData))
  longer : 0x2E ∉ name → img'.length = img.length + 1

theorem mem_dot_iff {base ext : List UInt8} (short : ShortName base ext) :
    0x2E ∈ joinName base ext ↔ ext ≠ [] := by
  have noDot : (0x2E : UInt8) ∉ base :=
    fun member => (nameByte_facts _ (short.base_bytes _ member)).2.2.1.1 rfl
  rw [joinName, List.mem_append, or_iff_right noDot]
  split
  · rename_i none
    exact iff_of_false List.not_mem_nil (absurd none)
  · rename_i some
    exact iff_of_true List.mem_cons_self some

/-- The entry that the tool builds has the bytes of the driver's, and one more byte when the name has
no extension. -/
theorem built_entry {name : Path} (valid : Valid83 name) {first : Nat} {fileData : List UInt8}
    {shortName shortExt dirEntry : List UInt8}
    (names : shortNames (name.map asciiUpper) = .ok (shortName, shortExt))
    (built : buildEntry shortName shortExt first fileData.length = .ok dirEntry) :
    first < 2 ^ 16 ∧ fileData.length < 2 ^ 32 ∧
      dirEntry = (fileEntry name first fileData).toBytes ++ zeros (if 0x2E ∈ name then 0 else 1) := by
  obtain ⟨base, ext, short, rfl⟩ := valid
  have empty : ext.map asciiUpper = [] ↔ ext = [] := List.map_eq_nil_iff
  obtain ⟨field, extension⟩ := short.upper.setName83 Fat32DirEntry.zeroed
  rw [joinName_map asciiUpper (by decide), shortNames_eq short.upper] at names
  cases names
  have eight := length_padded 8 (base.map asciiUpper)
  by_cases none : ext = []
  · rw [if_pos (empty.mpr none)] at built
    have long : (padded 8 (base.map asciiUpper) ++ padded 3 [] ++ [0x20]).length = 12 := by
      simp only [List.length_append, length_padded, List.length_singleton]
    obtain ⟨low, small, rfl⟩ := buildEntry_ok (buildEntry_blanks eight) long built
    have blank : padded 3 (ext.map asciiUpper) = padded 3 [] := congrArg (padded 3) (empty.mpr none)
    refine ⟨low, small, ?_⟩
    rw [fileEntry, short.toUpper83, newEntry_toBytes _ low small, field, extension, blank,
      if_neg fun member => (mem_dot_iff short).mp member none]
  · rw [if_neg fun nothing => none (empty.mp nothing)] at built
    have long : (padded 8 (base.map asciiUpper) ++ padded 3 (ext.map asciiUpper) ++ [0x20]).length =
        12 := by
      simp only [List.length_append, length_padded, List.length_singleton]
    obtain ⟨low, small, rfl⟩ :=
      buildEntry_ok (buildEntry_three eight (length_padded 3 (ext.map asciiUpper))) long built
    refine ⟨low, small, ?_⟩
    rw [fileEntry, short.toUpper83, newEntry_toBytes _ low small, field, extension,
      if_pos ((mem_dot_iff short).mpr none)]

section Success

variable {fs : Fat32Fs} {img img' : List UInt8} (image : WellFormedImage fs img) {name : Path}
  {fileData : List UInt8}
include image

theorem found_slot {volume : Volume} (shows : Shows fs img img' volume) {clusters : List Nat}
    (chain : volume.Chain fs fs.bpb.rootCluster.toNat clusters) (present : 2 ≤ fs.bpb.rootCluster.toNat)
    {dirOffset : Int}
    (found : findSlot img' (toolBpb fs).rootOffset (List.range ((toolBpb fs).clusterSize / 32)) =
      .ok dirOffset) (entry : Fat32DirEntry) : ∃ i, fs.InCluster i ∧
      dirOffset = ((toolBpb fs).imgOffset fs.bpb.rootCluster.toNat + i * 32 : Nat) ∧
      volume.putEntry fs fs.bpb.rootCluster.toNat entry =
        (true, volume.setEntry (fs.bpb.rootCluster.toNat, i) entry) := by
  have valid := chain.valid _ (chain.mem_start present)
  have root : (toolBpb fs).rootOffset = ((toolBpb fs).imgOffset fs.bpb.rootCluster.toNat : Nat) := by
    have back : ((fs.bpb.rootCluster.toNat - 2 : Nat) : Int) = (fs.bpb.rootCluster.toNat : Int) - 2 := by
      omega
    rw [Bpb.rootOffset, Bpb.imgOffset]
    push_cast
    rw [back]
    rfl
  have slots : List.range ((toolBpb fs).clusterSize / 32) = fs.slotIndices := by
    rw [toolBpb_clusterSize]
    rfl
  rw [root, slots] at found
  obtain ⟨front, i, back, split, place, ⟨first, read, marked⟩, passed⟩ := findSlot_ok found
  have inside (index : Nat) (member : index ∈ front ++ i :: back) : fs.InCluster index := by
    rw [← split, Fat32Fs.slotIndices, List.mem_range] at member
    exact member
  have here := inside i (List.mem_append_right _ List.mem_cons_self)
  rw [place] at read
  have vacant := vacant_iff image.toWhole shows valid here read
  rw [if_pos marked] at vacant
  have before : ∀ position ∈ front.map fun index => (fs.bpb.rootCluster.toNat, index),
      judgeVacant (volume.entry position) = .skip := by
    intro position member
    obtain ⟨index, earlier, rfl⟩ := List.mem_map.mp member
    obtain ⟨other, readOther, unmarked⟩ := passed index earlier
    have judged := vacant_iff image.toWhole shows valid (inside index (List.mem_append_left _ earlier))
      readOther
    rwa [if_neg unmarked] at judged
  obtain ⟨rest, shown⟩ : ∃ rest, Fat32Fs.visible clusters = fs.bpb.rootCluster.toNat :: rest := by
    have head := chain.head present
    cases clusters with
    | nil => cases head
    | cons cluster rest =>
        injection head with same
        exact ⟨rest.take Fat32Fs.maxChain, by rw [← same]; rfl⟩
  have taken : volume.scan judgeVacant (volume.slotsOf fs fs.bpb.rootCluster.toNat) =
      .taken (fs.bpb.rootCluster.toNat, i) := by
    refine (Volume.scan_taken_iff _ _).mpr ⟨_, back.map (fun index => (fs.bpb.rootCluster.toNat, index)) ++
      fs.positions rest, ?_, before, vacant⟩
    have first : fs.positions (fs.bpb.rootCluster.toNat :: rest) =
        (fs.slotIndices.map fun index => (fs.bpb.rootCluster.toNat, index)) ++ fs.positions rest :=
      List.flatMap_cons
    rw [Volume.slotsOf_eq image.geometry chain, Fat32Fs.slots, shown, first, split, List.map_append,
      List.map_cons, List.append_assoc, List.cons_append]
  refine ⟨i, here, place, ?_⟩
  rw [Volume.putEntry, taken]

theorem addToFat32_inserts (valid : Valid83 name) (ran : addToFat32 img name fileData = .ok img') :
    ∃ clusters first position, Inserted fs img img' name fileData clusters first position := by
  have whole := image.toWhole
  have sound := image.formed.sound
  obtain ⟨present, rootClusters, rootChain⟩ := Volume.liveDir_root.chain sound
  simp only [addToFat32, Tool.bind_ok] at ran
  obtain ⟨bpb, read, needed, counted, found, searched, ran⟩ := ran
  rw [readBpb_eq whole.bootInside image.mounts] at read
  cases read
  split at ran
  · cases ran
  rename_i enough
  simp only [Tool.bind_ok] at ran
  obtain ⟨linked, chained, dirOffset, slot, ⟨shortName, shortExt⟩, names, dirEntry, built, wrote⟩ := ran
  obtain ⟨_, rfl, sub, unused⟩ := findFree_ok searched
  obtain rfl := clustersNeeded_ok whole counted
  generalize clustersEq : found.take (max 1 ((fileData.length + fs.bpb.clusterSizeBytes - 1) /
    fs.bpb.clusterSizeBytes)) = clusters at chained built
  have count : clusters.length =
      max 1 ((fileData.length + fs.bpb.clusterSizeBytes - 1) / fs.bpb.clusterSizeBytes) := by
    rw [← clustersEq, List.length_take]
    omega
  have inside : clusters.Sublist found := clustersEq ▸ List.take_sublist _ _
  have validAll : ∀ cluster ∈ clusters, fs.Valid cluster :=
    fun cluster member => clusterRange_valid whole ((inside.trans sub).subset member)
  have distinct : clusters.Nodup := List.Nodup.sublist (inside.trans sub) List.nodup_range'
  have free : ∀ cluster ∈ clusters, (fs.view (imageDevice img)).fat cluster = 0 := by
    intro cluster member
    obtain ⟨entry, readEntry, zero⟩ := unused cluster (inside.subset member)
    exact free_of_read whole (validAll cluster member) readEntry zero
  have head : clusters.head? = some (clusters.headD 0) := by
    cases clusters with
    | nil =>
        rw [List.length_nil] at count
        omega
    | cons cluster rest => rfl
  have placed := Volume.store_placed head distinct validAll free fileData
  have filled := writeClusters_shows whole (Shows.refl fs img) validAll fileData 0
  have threaded := writeChain_shows whole filled validAll chained
  have same : stored fs img clusters fileData = _ := Volume.store_alone fs _ clusters fileData
  rw [← same] at threaded
  have mirrored := mirrorFat_shows whole threaded
  have rootAfter : (stored fs img clusters fileData).Chain fs fs.bpb.rootCluster.toNat rootClusters :=
    rootChain.kept fun cluster member => placed.kept cluster (rootChain.not_free member)
  obtain ⟨i, bound, place, put⟩ := found_slot image mirrored rootAfter present slot
    (fileEntry name (clusters.headD 0) fileData)
  obtain ⟨low, small, entry⟩ := built_entry valid names built
  rw [place, entry] at wrote
  have cast (start : Nat) : (start : Int) + 32 = (start + 32 : Nat) := rfl
  rw [cast] at wrote
  cases wrote
  have fits := bound.fits
  have validRoot := rootChain.valid _ (rootChain.mem_start present)
  have rootInside := whole.cluster_inside validRoot
  rw [← toolBpb_clusterSize] at fits
  have long := (fileEntry name (clusters.headD 0) fileData).length_toBytes
  refine ⟨clusters, clusters.headD 0, (fs.bpb.rootCluster.toNat, i), placed, count, low, small, put,
    fun dotted => ?_, fun plain => ?_⟩
  · have nothing : zeros 0 = [] := rfl
    rw [if_pos dotted, nothing, List.append_nil, setSlice_nat (by rw [long, entrySize])]
    exact mirrored.spliceData whole validRoot (by rw [long]; exact fits)
  · rw [entrySize] at fits long
    have within : (toolBpb fs).imgOffset fs.bpb.rootCluster.toNat + i * 32 + 32 ≤
        (mirrorFat (toolBpb fs) linked).length := by
      rw [mirrored.length]
      omega
    have size := length_setSlice (Nat.le_add_right _ 32) within
      ((fileEntry name (clusters.headD 0) fileData).toBytes ++ zeros 1)
    rw [List.length_append, length_zeros, long, mirrored.length] at size
    rw [if_neg plain]
    omega

end Success

end ArcadiaOs.Tools
