import ArcadiaOs.Fs.Session

/-!
Who owns which cluster, over whole sessions.  The calls keep every chain to its owner
as long as they are careful; a delete through a dot frees a chain that is still linked.
-/

namespace ArcadiaOs.Fs

open Lib

/-- The root directory and every live entry have an acyclic chain inside the volume, with no free
cluster in it and none of another owner. -/
def ClusterOwnership (fs : Fat32Fs) (volume : Volume) : Prop :=
  ∀ owner, volume.Live fs owner → ∃ clusters, volume.Owns fs owner clusters ∧ clusters.Nodup ∧
    (∀ cluster ∈ clusters, fs.Valid cluster ∧ volume.fat cluster ≠ 0) ∧
    ∀ other others, volume.Live fs other → other ≠ owner → volume.Owns fs other others →
      others.Disjoint clusters

theorem Volume.Sound.ownership {fs : Fat32Fs} {volume : Volume} (sound : volume.Sound fs) :
    ClusterOwnership fs volume := by
  intro owner live
  obtain ⟨clusters, owned⟩ := sound.owns owner live
  refine ⟨clusters, owned, owned.distinct, fun cluster member => ?_, ?_⟩
  · exact ⟨owned.valid cluster member, owned.not_free member⟩
  · intro other others otherLive different otherOwned
    exact sound.apart other owner otherLive live different others clusters otherOwned owned

namespace Session

def CarefulRun (fs : Fat32Fs) (session : Session) (calls : List Call) : Prop :=
  machine.Meets (fun session => Careful fs session.vfs (fs.view session.device)) session calls

theorem final_ready {fs : Fat32Fs} (geometry : fs.Geometry) {session : Session}
    (ready : session.Ready fs) {calls : List Call} (careful : CarefulRun fs session calls) :
    (machine.final session calls).Ready fs :=
  machine.final_invariant (Ready fs) _ (fun _ _ ready careful => step_ready geometry ready careful)
    session calls ready careful

/-- Careful calls keep every cluster with its one owner. -/
theorem cluster_ownership {fs : Fat32Fs} (geometry : fs.Geometry) {session : Session}
    (ready : session.Ready fs) {calls : List Call} (careful : CarefulRun fs session calls) :
    ClusterOwnership fs (fs.view (machine.final session calls).device) :=
  (final_ready geometry ready careful).sound.ownership

end Session

/-! A volume of eight clusters of one sector, with an empty root directory. -/

def smallFs : Fat32Fs where
  bpb :=
    { bytesPerSector := 512, sectorsPerCluster := 1, reservedSectorCount := 1, numFats := 1,
      totalSectors32 := 10, fatSize32 := 1, rootCluster := 2 }
  partitionLba := 0

/-- The table marks the root directory's cluster as the end of its chain. -/
def blankBytes (lba : Nat) : List UInt8 :=
  if lba = 1 then splice (zeros sectorSize) 8 (leBytes 4 fat32Eoc) else zeros sectorSize

theorem length_blankBytes (lba : Nat) : (blankBytes lba).length = sectorSize := by
  rw [blankBytes]
  split
  · rw [length_splice, length_zeros]
    rw [length_leBytes, length_zeros, sectorSize]
    decide
  · rw [length_zeros]

def filledSector (offset : Nat) (part : List UInt8) (fits : offset + part.length ≤ sectorSize) :
    Sector := ⟨splice (zeros sectorSize) offset part, by
    rw [length_splice (by rw [length_zeros]; exact fits), length_zeros]⟩

def blankDevice : Device where
  sector lba := ⟨blankBytes lba, length_blankBytes lba⟩
  readable _ := true
  writable _ := true

def blankSession : Session where
  vfs := { fatFs := some smallFs, rootCluster := 2, fileTable := [], nextFd := 1, cwd := [slash] }
  device := blankDevice

theorem smallFs_geometry : smallFs.Geometry := by
  constructor <;> decide

theorem blank_chain :
    (smallFs.view blankDevice).Chain smallFs smallFs.bpb.rootCluster.toNat [2] := by
  have ended : (smallFs.view blankDevice).fat 2 = fat32Eoc := by decide
  exact Volume.chain_single (by decide) ended.ge

theorem blank_unoccupied : ∀ position ∈ smallFs.positions [2],
    ¬Occupied ((smallFs.view blankDevice).entry position) := by decide +kernel

theorem blank_ready : blankSession.Ready smallFs := by
  refine ⟨⟨rfl, rfl⟩, fun _ => ⟨rfl, rfl⟩, ?_⟩
  exact Volume.sound_of_blank smallFs_geometry blank_chain blank_unoccupied (by decide)

theorem cluster_ownership_create :
    Session.CarefulRun smallFs blankSession [.createFile [0x2F, 0x41] [1, 2, 3]] ∧
      ClusterOwnership smallFs (smallFs.view
        (Session.machine.final blankSession [.createFile [0x2F, 0x41] [1, 2, 3]]).device) := by
  have proper : (smallFs.view blankDevice).ProperPath smallFs [0x2F, 0x41] := by decide
  have careful : Session.CarefulRun smallFs blankSession [.createFile [0x2F, 0x41] [1, 2, 3]] :=
    ⟨proper, trivial⟩
  exact ⟨careful, Session.cluster_ownership smallFs_geometry blank_ready careful⟩

theorem made_shows : Session.Ready smallFs (blankSession.step (.mkdir [0x2F, 0x44])).2 ∧
    Session.Shows smallFs (blankSession.step (.mkdir [0x2F, 0x44])).2 blankSession.vfs
      ((smallFs.view blankDevice).mkdir smallFs [0x2F, 0x44]).2 := by
  have proper : (smallFs.view blankDevice).ProperPath smallFs [0x2F, 0x44] := by decide
  have careful : Session.Careful smallFs blankSession.vfs (smallFs.view blankDevice)
      (.mkdir [0x2F, 0x44]) := proper
  exact ⟨Session.step_ready smallFs_geometry blank_ready careful,
    Session.step_shows smallFs_geometry blank_ready careful⟩

/-- `delete("/D/..")` frees the cluster of the root directory. -/
theorem delete_dotdot_frees_root : ¬ClusterOwnership smallFs (smallFs.view
    (Session.machine.final blankSession
      [.mkdir [0x2F, 0x44], .delete [0x2F, 0x44, 0x2F, 0x2E, 0x2E]]).device) := by
  obtain ⟨⟨mounted, healthy, sound⟩, _, _, holds⟩ := made_shows
  rw [holds] at sound
  generalize madeEq : ((smallFs.view blankDevice).mkdir smallFs [0x2F, 0x44]).2 = made at *
  have parent : made.parentOf smallFs [0x2F, 0x44, 0x2F, 0x2E, 0x2E] = .ok 3 := by
    rw [← madeEq]
    decide
  have found : made.findIn smallFs 3 [0x2F, 0x44, 0x2F, 0x2E, 0x2E] = some (3, 1) := by
    rw [← madeEq]
    decide
  have proper : made.ProperPath smallFs [0x2F, 0x44, 0x2F, 0x2E, 0x2E] := by
    rw [← madeEq]
    decide
  have target : (made.entry (3, 1)).firstCluster = smallFs.bpb.rootCluster.toNat := by
    rw [← madeEq]
    decide
  have freed : (made.delete smallFs [0x2F, 0x44, 0x2F, 0x2E, 0x2E]).2.fat 2 = 0 := by
    rw [← madeEq]
    decide
  have chained : ∀ dir position,
      made.parentOf smallFs [0x2F, 0x44, 0x2F, 0x2E, 0x2E] = .ok dir →
      made.findIn smallFs dir [0x2F, 0x44, 0x2F, 0x2E, 0x2E] = some position →
      ∃ clusters, made.Chain smallFs (made.entry position).firstCluster clusters := by
    intro dir position reached named
    rw [parent, Except.ok.injEq] at reached
    subst reached
    rw [found, Option.some.injEq] at named
    subst named
    rw [target]
    exact sound.owns .root .root
  obtain ⟨device, ran, _, after⟩ :=
    mounted.delete_runs smallFs_geometry sound proper chained _ healthy holds
  have final : (Session.machine.final blankSession
      [.mkdir [0x2F, 0x44], .delete [0x2F, 0x44, 0x2F, 0x2E, 0x2E]]).device = device := by
    simp only [Machine.final_cons, Machine.final_nil, Session.machine, Session.step] at ran ⊢
    rw [ran]
    cases (made.delete smallFs [0x2F, 0x44, 0x2F, 0x2E, 0x2E]).1 <;> rfl
  intro ownership
  rw [final, after] at ownership
  obtain ⟨clusters, owned, _, inside, _⟩ := ownership .root .root
  exact (inside 2 (owned.mem_start (show 2 ≤ smallFs.bpb.rootCluster.toNat by decide))).2 freed

end ArcadiaOs.Fs
