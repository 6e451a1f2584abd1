import ArcadiaOs.Fs.Addition
import ArcadiaOs.Fs.SequentialRead
import ArcadiaOs.Tools.Insertion

/-!
The image tool and the kernel on one format.  What the tool adds under a name with an extension is
what the kernel finds, as far as it follows a chain; a name without one makes the image a byte
longer.
-/

namespace ArcadiaOs.Tools

open Lib Fs

/-- The kernel finds the new file in the new image, and everything that was there before. -/
structure Agrees (fs : Fat32Fs) (img img' : List UInt8) (name : Path) (fileData : List UInt8) :
    Prop where
  length : img'.length = img.length
  mounts : Fat32Fs.mount 0 (imageDevice img') = .ok fs (imageDevice img')
  file : ∃ entry, (fs.findEntry fs.bpb.rootCluster.toNat (toUpper83 name)).answer (imageDevice img') =
      .ok (some entry) ∧
    entry.isDirectory = false ∧ entry.fileSize.toNat = fileData.length ∧
    ∀ buf, buf.length = fileData.length →
      (fs.readFile entry.firstCluster entry.fileSize.toNat buf).answer (imageDevice img') =
        .ok (fileData.length, fileData)
  files : ∀ vfs path position, Mounted fs vfs →
    (fs.view (imageDevice img)).Names fs path position →
    ((fs.view (imageDevice img)).entry position).isDirectory = false →
    (vfs.readFileContent path).answer (imageDevice img') =
      (vfs.readFileContent path).answer (imageDevice img)
  directories : ∀ vfs path target, Mounted fs vfs → Leads fs (fs.view (imageDevice img)) path target →
    target ≠ fs.bpb.rootCluster.toNat →
    (vfs.listDir path).answer (imageDevice img') = (vfs.listDir path).answer (imageDevice img)
  root : ∀ vfs path, Mounted fs vfs →
    Leads fs (fs.view (imageDevice img)) path fs.bpb.rootCluster.toNat → ∃ before after cluster,
      (vfs.listDir path).answer (imageDevice img) = .ok before ∧
      (vfs.listDir path).answer (imageDevice img') = .ok after ∧
      after.Perm (⟨name.map asciiLower, false, fileData.length, cluster⟩ :: before)

theorem fileEntry_shown {name : Path} (valid : Valid83 name) (cluster : Nat) (fileData : List UInt8) :
    (fileEntry name cluster fileData).isHidden = false := by
  have attributes : (decide ((0x20 : UInt8) &&& 0x0F = 0x0F) || decide ((0x20 : UInt8) &&& 0x08 ≠ 0)) =
      false := by decide
  have live := (newEntry_plain valid 0x20 cluster fileData.length).live.2
  have split : (fileEntry name cluster fileData).isHidden =
      ((fileEntry name cluster fileData).isDeleted ||
        (decide ((0x20 : UInt8) &&& 0x0F = 0x0F) || decide ((0x20 : UInt8) &&& 0x08 ≠ 0))) := by
    rw [← Bool.or_assoc]
    rfl
  rw [split, live, attributes]
  rfl

section Agreement

variable {fs : Fat32Fs} {img img' : List UInt8} (image : WellFormedImage fs img) {name : Path}
  (valid : Valid83 name) {fileData : List UInt8} {clusters : List Nat} {first : Nat}
  {position : Position} (inserted : Inserted fs img img' name fileData clusters first position)
include image

theorem stored_shaped (clusters : List Nat) (fileData : List UInt8) :
    (stored fs img clusters fileData).Shaped fs :=
  Volume.store_shaped fun cluster => fs.length_view_data image.geometry (imageDevice img) cluster

include valid inserted

theorem inserted_enters : (fs.view (imageDevice img)).Enters fs
    ((stored fs img clusters fileData).setEntry position (fileEntry name first fileData))
    fs.bpb.rootCluster.toNat (fileEntry name first fileData) := by
  have plain := newEntry_plain valid 0x20 first fileData.length
  have enters := Volume.putEntry_enters image.geometry (stored_shaped image clusters fileData)
    inserted.placed.kept image.formed.toOrderly Volume.liveDir_root
    (fun clusters chain => image.formed.short .root clusters .root chain) plain.live.1
    (fileEntry_shown valid first fileData) (by rw [inserted.put])
  rw [inserted.put] at enters
  exact enters

omit valid in
theorem inserted_sound : ((stored fs img clusters fileData).setEntry position
    (fileEntry name first fileData)).Sound fs := by
  have sound := image.formed.sound
  have preserves : (fs.view (imageDevice img)).Preserves fs (stored fs img clusters fileData) :=
    Volume.Preserves.of_agree fun _ claimed => inserted.placed.kept _ claimed.not_free
  have after := Volume.putEntry_sound image.geometry (stored_shaped image clusters fileData)
    (preserves.sound image.geometry sound)
    (Volume.liveDir_root.preserved preserves image.geometry sound)
    (inserted.placed.recordable image.geometry sound (toUpper83 name) fileData.length)
  rw [inserted.put] at after
  exact after

omit valid in
theorem inserted_kept : ∀ cluster ∈ clusters, (stored fs img clusters fileData).Kept
    ((stored fs img clusters fileData).setEntry position (fileEntry name first fileData)) cluster := by
  intro cluster member
  obtain ⟨present, rootClusters, rootChain⟩ := Volume.liveDir_root.chain image.formed.sound
  have rootAfter : (stored fs img clusters fileData).Chain fs fs.bpb.rootCluster.toNat rootClusters :=
    rootChain.kept fun other inside => inserted.placed.kept other (rootChain.not_free inside)
  have outside : cluster ∉ rootClusters :=
    fun inside => rootChain.not_free inside (inserted.placed.unused cluster member)
  have kept := Volume.putEntry_kept image.geometry rootAfter present
    (fileEntry name first fileData) outside (inserted.placed.chain.not_free member)
  rw [inserted.put] at kept
  exact kept

omit valid in
theorem inserted_enough : fileData.length ≤ clusters.length * fs.bpb.clusterSizeBytes ∧
    (clusters.length ≤ Fat32Fs.maxChain + 1 ↔
      fileData.length ≤ (Fat32Fs.maxChain + 1) * fs.bpb.clusterSizeBytes) := by
  have some := image.geometry.clusterSize_pos
  have count := inserted.count
  generalize fs.bpb.clusterSizeBytes = size at some count ⊢
  have enough (bound : Nat) : (fileData.length + size - 1) / size ≤ bound ↔
      fileData.length ≤ bound * size := by
    rw [← Nat.lt_succ_iff, Nat.div_lt_iff_lt_mul some, Nat.succ_mul]
    omega
  rw [count]
  refine ⟨?_, ?_⟩
  · exact (enough _).mp (Nat.le_max_right _ _)
  · rw [← enough, Nat.max_le, and_iff_right (Nat.succ_le_succ (Nat.zero_le _))]

omit valid in
theorem stored_front :
    ((stored fs img clusters fileData).contents clusters).take fileData.length = fileData := by
  obtain ⟨enough, _⟩ := inserted_enough image inserted
  exact Volume.contents_store (fs.length_view_data image.geometry (imageDevice img))
    inserted.placed.chain.distinct enough

variable {device : Device} (healthy : device.Healthy) (holds : fs.view device =
  (stored fs img clusters fileData).setEntry position (fileEntry name first fileData))
include healthy holds

omit valid in
theorem read_inserted (buf : List UInt8) (long : buf.length = fileData.length) :
    (fs.readFile first fileData.length buf).answer device =
      .ok (min fileData.length ((Fat32Fs.visible clusters).length * fs.bpb.clusterSizeBytes),
        splice buf 0 (((stored fs img clusters fileData).contents (Fat32Fs.visible clusters)).take
          fileData.length)) := by
  have kept := inserted_kept image inserted
  have shaped : (fs.view device).Shaped fs := fun cluster =>
    fs.length_view_data image.geometry device cluster
  have chain : (fs.view device).Chain fs first clusters := by
    rw [holds]
    exact inserted.placed.chain.kept kept
  have ran := (Fat32Fs.readFile_counts image.geometry shaped chain fileData.length buf).answer healthy rfl
  have same : (fs.view device).contents (Fat32Fs.visible clusters) =
      (stored fs img clusters fileData).contents (Fat32Fs.visible clusters) := by
    rw [holds]
    exact Volume.contents_congr fun cluster member => (kept cluster (List.mem_of_mem_take member)).2
  rw [ran, same, long, Nat.min_self]

end Agreement

theorem entry_absent {fs : Fat32Fs} {img : List UInt8} (image : WellFormedImage fs img) {name : Path}
    (valid : Valid83 name)
    (absent : (fs.findEntry fs.bpb.rootCluster.toNat (toUpper83 name)).answer (imageDevice img) =
      .ok none) (first : Nat) (fileData : List UInt8) : ∀ clusters,
    (fs.view (imageDevice img)).Chain fs fs.bpb.rootCluster.toNat clusters →
      lookup Fat32DirEntry.fullNameUpper (liveOf ((fs.view (imageDevice img)).slotEntries fs clusters))
        (fileEntry name first fileData).fullNameUpper = none := by
  intro clusters chain
  have short := image.formed.short .root clusters .root chain
  have has : HasEntries fs fs.bpb.rootCluster.toNat (imageDevice img) clusters _ :=
    ⟨imageDevice_healthy img, chain, Nat.le_succ_of_le short, rfl⟩
  rw [has.find image.geometry] at absent
  rw [newEntry_fullNameUpper valid]
  exact Except.ok.inj absent

theorem fileEntry_fields (name : Path) {first : Nat} {fileData : List UInt8} (low : first < 2 ^ 16)
    (small : fileData.length < 2 ^ 32) : (fileEntry name first fileData).firstCluster = first ∧
      (fileEntry name first fileData).fileSize.toNat = fileData.length := by
  refine ⟨newEntry_firstCluster _ _ (Nat.lt_trans low (by decide)) _, ?_⟩
  have size : (fileEntry name first fileData).fileSize = UInt32.ofNat fileData.length := rfl
  rw [size, UInt32.toNat_ofNat']
  exact Nat.mod_eq_of_lt small

section Dotted

variable {fs : Fat32Fs} {img img' : List UInt8} (image : WellFormedImage fs img) {name : Path}
  (valid : Valid83 name)
  (absent : (fs.findEntry fs.bpb.rootCluster.toNat (toUpper83 name)).answer (imageDevice img) = .ok none)
  {fileData : List UInt8} {clusters : List Nat} {first : Nat} {position : Position}
  (inserted : Inserted fs img img' name fileData clusters first position) (dotted : 0x2E ∈ name)
include image valid inserted dotted

theorem dotted_enters : (fs.view (imageDevice img)).Enters fs (fs.view (imageDevice img'))
    fs.bpb.rootCluster.toNat (fileEntry name first fileData) := by
  rw [(inserted.shows dotted).view]
  exact inserted_enters image valid inserted

include absent

theorem dotted_found : (fs.findEntry fs.bpb.rootCluster.toNat (toUpper83 name)).answer
    (imageDevice img') = .ok (some (fileEntry name first fileData)) := by
  obtain ⟨rootClusters, chain, _⟩ :=
    Volume.records_of_formed image.formed Volume.liveDir_root
  obtain ⟨entries, ⟨after, chainAfter, short, live⟩, _, _, found, _⟩ :=
    (dotted_enters image valid inserted dotted).records_parent image.geometry image.formed
      Volume.liveDir_root (newEntry_plain valid 0x20 first fileData.length)
      (entry_absent image valid absent first fileData) chain
  have has : HasEntries fs fs.bpb.rootCluster.toNat (imageDevice img') after entries :=
    ⟨imageDevice_healthy img', chainAfter, short, live⟩
  rw [newEntry_fullNameUpper valid] at found
  rw [has.find image.geometry, found]

theorem dotted_agrees (short : clusters.length ≤ Fat32Fs.maxChain + 1) :
    Agrees fs img img' name fileData := by
  have shows := inserted.shows dotted
  have healthy := imageDevice_healthy img
  have healthy' := imageDevice_healthy img'
  have enters := dotted_enters image valid inserted dotted
  have sound' := inserted_sound image inserted
  rw [← shows.view] at sound'
  have plain := newEntry_plain valid 0x20 first fileData.length
  have absentLive := entry_absent image valid absent first fileData
  obtain ⟨started, sized⟩ := fileEntry_fields name inserted.low inserted.small
  refine ⟨shows.length, ?_, ⟨_, dotted_found image valid absent inserted dotted,
    newEntry_regular _ _ _, sized, fun buf long => ?_⟩, ?_, ?_, ?_⟩
  · obtain ⟨bpb, accepted, mounted⟩ := mount_image.mp image.mounts
    exact mount_image.mpr ⟨bpb, by rw [shows.boot, accepted], mounted⟩
  · obtain ⟨enough, _⟩ := inserted_enough image inserted
    rw [started, sized, read_inserted image inserted healthy' shows.view buf long,
      Fat32Fs.visible_short short, stored_front image inserted, Nat.min_eq_left enough,
      splice_whole long.le]
  · intro vfs path position mounted names regular
    exact readFileContent_kept enters image.geometry mounted healthy healthy' image.formed sound'
      Volume.liveDir_root plain absentLive names regular
  · intro vfs path target mounted leads apart
    exact listDir_elsewhere enters image.geometry mounted healthy healthy' image.formed sound'
      Volume.liveDir_root plain absentLive leads apart
  · intro vfs path mounted leads
    have named : ¬IsDotName (fileEntry name first fileData).fullNameUpper := by
      rw [newEntry_fullNameUpper valid, toUpper83_dots]
      exact valid.component.2.1
    obtain ⟨before, after, listed, listedAfter, perm⟩ := listDir_parent enters image.geometry mounted
      healthy healthy' image.formed sound' Volume.liveDir_root plain absentLive named leads
    refine ⟨before, after, first, listed, listedAfter, ?_⟩
    have shown : nodeOf (DirEntryInfo.ofEntry (fileEntry name first fileData)) =
        ⟨name.map asciiLower, false, fileData.length, first⟩ := by
      rw [nodeOf, newEntry_shown valid]
      exact congr (congrArg₂ (VfsNode.mk _ · ·) (newEntry_regular _ _ _) sized) started
    rw [← shown]
    exact perm

theorem short_of_agrees (agrees : Agrees fs img img' name fileData) :
    fileData.length ≤ (Fat32Fs.maxChain + 1) * fs.bpb.clusterSizeBytes := by
  obtain ⟨entry, found, _, _, read⟩ := agrees.file
  rw [dotted_found image valid absent inserted dotted, Except.ok.injEq, Option.some.injEq] at found
  subst found
  obtain ⟨started, sized⟩ := fileEntry_fields name inserted.low inserted.small
  have whole := read (zeros fileData.length) (length_zeros _)
  rw [started, sized, read_inserted image inserted (imageDevice_healthy img')
    (inserted.shows dotted).view _ (length_zeros _), Except.ok.injEq, Prod.mk.injEq] at whole
  have followed : (Fat32Fs.visible clusters).length ≤ Fat32Fs.maxChain + 1 := List.length_take_le _ _
  have bound := Nat.mul_le_mul_right fs.bpb.clusterSizeBytes followed
  omega

end Dotted

/-- Where the tool reports success, the kernel agrees exactly when the name has an extension and the
file fits the clusters that `read_chain` follows. -/
theorem tool_agrees_iff {fs : Fat32Fs} {img img' : List UInt8} (image : WellFormedImage fs img)
    {name : Path} (valid : Valid83 name)
    (absent : (fs.findEntry fs.bpb.rootCluster.toNat (toUpper83 name)).answer (imageDevice img) =
      .ok none) {fileData : List UInt8} (added : addToFat32 img name fileData = .ok img') :
    Agrees fs img img' name fileData ↔
      0x2E ∈ name ∧ fileData.length ≤ (Fat32Fs.maxChain + 1) * fs.bpb.clusterSizeBytes := by
  obtain ⟨clusters, first, position, inserted⟩ := addToFat32_inserts image valid added
  by_cases dotted : 0x2E ∈ name
  · rw [and_iff_right dotted]
    refine ⟨short_of_agrees image valid absent inserted dotted, fun fits => ?_⟩
    exact dotted_agrees image valid absent inserted dotted
      ((inserted_enough image inserted).2.mpr fits)
  · refine iff_of_false (fun agrees => ?_) fun both => dotted both.1
    have longer := inserted.longer dotted
    rw [agrees.length] at longer
    omega

/-! An image of five sectors: one free cluster and a root directory that records nothing. -/

def smallBoot : List UInt8 :=
  zeros 11 ++ leBytes 2 512 ++ [1] ++ leBytes 2 1 ++ [2] ++ zeros 15 ++ leBytes 4 5 ++ leBytes 4 1 ++
    zeros 4 ++ leBytes 4 2 ++ zeros 34 ++ fat32Type ++ List.replicate 3 0x20 ++ zeros 422

def smallFat : List UInt8 := zeros 8 ++ leBytes 4 fat32Eoc ++ zeros 500

def smallImage : List UInt8 := smallBoot ++ smallFat ++ smallFat ++ zeros 1024

def imageFs : Fat32Fs := ⟨Fat32Bpb.readFrom smallBoot, 0⟩

theorem smallBoot_length : smallBoot.length = 512 := by
  simp only [smallBoot, List.length_append, length_zeros, length_leBytes, List.length_cons,
    List.length_nil, List.length_replicate, fat32Type]

theorem smallFat_length : smallFat.length = 512 := by
  simp only [smallFat, List.length_append, length_zeros, length_leBytes]

theorem smallImage_length : smallImage.length = 2560 := by
  simp only [smallImage, List.length_append, smallBoot_length, smallFat_length, length_zeros]

theorem imageFs_geometry : imageFs.Geometry := by
  constructor <;> decide

theorem small_whole : Whole imageFs smallImage := by
  refine ⟨imageFs_geometry, rfl, by decide, by decide, ?_⟩
  rw [smallImage_length]
  decide

theorem small_mounts :
    Fat32Fs.mount 0 (imageDevice smallImage) = .ok imageFs (imageDevice smallImage) := by
  have boot : bytesAt smallImage 0 sectorSize = smallBoot := by
    rw [bytesAt_eq_slice (by rw [smallImage_length]; decide), slice, List.drop_zero, smallImage,
      List.append_assoc, List.append_assoc, sectorSize, List.take_left' smallBoot_length]
  have accepted : Fat32Bpb.Accepted smallBoot := by
    constructor <;> decide +kernel
  exact mount_image.mpr ⟨_, by rw [boot, Fat32Bpb.fromBytes_eq_some accepted], rfl⟩

theorem small_slots : (imageFs.view (imageDevice smallImage)).slotEntries imageFs [2] =
    List.replicate 16 Fat32DirEntry.zeroed := by
  have place : (toolBpb imageFs).imgOffset 2 = 1536 ∧ (toolBpb imageFs).clusterSize = 512 := by
    decide
  have zeroed : (imageFs.view (imageDevice smallImage)).data 2 = zeros 512 := by
    rw [small_whole.view_data (by decide), place.1, place.2]
    apply bytes_ext
    · rw [length_bytesAt, length_zeros]
    · intro index bound
      rw [length_zeros] at bound
      have front : (smallBoot ++ smallFat ++ smallFat).length = 1536 := by
        rw [List.length_append, List.length_append, smallBoot_length, smallFat_length]
      rw [byteAt_bytesAt, if_pos bound, smallImage, byteAt_append, front, if_neg (by omega),
        byteAt_zeros, byteAt_zeros]
  refine List.eq_replicate_iff.mpr ⟨?_, fun slot member => ?_⟩
  · rw [Volume.slotEntries, List.length_map]
    decide
  · obtain ⟨position, inside, rfl⟩ := List.mem_map.mp member
    have root := List.mem_singleton.mp (Fat32Fs.mem_positions.mp inside).1
    rw [Volume.entry, root, zeroed, slotAt_zeros]

theorem small_chain : (imageFs.view (imageDevice smallImage)).Chain imageFs
    imageFs.bpb.rootCluster.toNat [2] := by
  have valid : imageFs.Valid 2 := by decide
  have start : imageFs.bpb.rootCluster.toNat = 2 := by decide
  have ended : (imageFs.view (imageDevice smallImage)).fat 2 = fat32Eoc := by
    rw [small_whole.view_fat valid]
    decide +kernel
  rw [start]
  exact Volume.chain_single valid ended.ge

theorem small_wellFormed : WellFormedImage imageFs smallImage := by
  have blank := small_slots
  refine ⟨small_whole, small_mounts, wellFormed_of_blank imageFs_geometry (by decide)
    small_chain (by decide) (fun position member occupied => ?_) ?_ ?_⟩
  · have slot : (imageFs.view (imageDevice smallImage)).entry position ∈
        (imageFs.view (imageDevice smallImage)).slotEntries imageFs [2] :=
      List.mem_map_of_mem member
    rw [blank] at slot
    rw [(List.mem_replicate.mp slot).2] at occupied
    exact not_occupied_zeroed occupied
  · rw [blank]
    exact zeroTail_zeros 16
  · rw [blank]
    exact liveOf_zeros 16

theorem small_absent (nameUpper : List UInt8) :
    (imageFs.findEntry imageFs.bpb.rootCluster.toNat nameUpper).answer (imageDevice smallImage) =
      .ok none := by
  have nothing : liveOf ((imageFs.view (imageDevice smallImage)).slotEntries imageFs [2]) = [] := by
    rw [small_slots]
    exact liveOf_zeros 16
  have has : HasEntries imageFs imageFs.bpb.rootCluster.toNat (imageDevice smallImage) [2] [] :=
    ⟨imageDevice_healthy _, small_chain, by decide, nothing⟩
  rw [has.find imageFs_geometry]
  rfl

theorem small_added : (∃ img', addToFat32 smallImage [0x41] [0x2A] = .ok img') ∧
    ∃ img', addToFat32 smallImage [0x41, 0x2E, 0x42] [0x2A] = .ok img' := by
  have done {name : Path} (succeeds : (addToFat32 smallImage name [0x2A]).toBool = true) :
      ∃ img', addToFat32 smallImage name [0x2A] = .ok img' := by
    cases ran : addToFat32 smallImage name [0x2A] with
    | error reason =>
        rw [ran] at succeeds
        cases succeeds
    | ok img' => exact ⟨img', rfl⟩
  have both : (addToFat32 smallImage [0x41] [0x2A]).toBool = true ∧
      (addToFat32 smallImage [0x41, 0x2E, 0x42] [0x2A]).toBool = true := by decide +kernel
  exact ⟨done both.1, done both.2⟩

theorem tool_agrees_small : ∃ img', addToFat32 smallImage [0x41, 0x2E, 0x42] [0x2A] = .ok img' ∧
    (Agrees imageFs smallImage img' [0x41, 0x2E, 0x42] [0x2A] ↔
      0x2E ∈ ([0x41, 0x2E, 0x42] : Path) ∧
        ([0x2A] : List UInt8).length ≤ (Fat32Fs.maxChain + 1) * imageFs.bpb.clusterSizeBytes) := by
  have valid : Valid83 [0x41, 0x2E, 0x42] :=
    ⟨[0x41], [0x42], ⟨by decide, by decide, by decide, by decide +kernel⟩, by decide⟩
  obtain ⟨img', added⟩ := small_added.2
  exact ⟨img', added, tool_agrees_iff small_wellFormed valid (small_absent _) added⟩

/-- Adding `A` succeeds and makes the image one byte longer. -/
theorem bare_name_shifts : WellFormedImage imageFs smallImage ∧ Valid83 [0x41] ∧
    (imageFs.findEntry imageFs.bpb.rootCluster.toNat (toUpper83 [0x41])).answer
      (imageDevice smallImage) = .ok none ∧
    ∃ img', addToFat32 smallImage [0x41] [0x2A] = .ok img' ∧
      img'.length = smallImage.length + 1 ∧ ¬Agrees imageFs smallImage img' [0x41] [0x2A] := by
  have valid : Valid83 [0x41] := ⟨[0x41], [], ⟨by decide, by decide, by decide, by decide +kernel⟩, by decide⟩
  obtain ⟨img', added⟩ := small_added.1
  obtain ⟨_, _, _, inserted⟩ := addToFat32_inserts small_wellFormed valid added
  have longer := inserted.longer (by decide)
  refine ⟨small_wellFormed, valid, small_absent _, img', added, longer, fun agrees => ?_⟩
  rw [agrees.length] at longer
  omega

end ArcadiaOs.Tools
