import ArcadiaOs.Fs.Bystanders
import ArcadiaOs.Fs.SequentialRead
import ArcadiaOs.Fs.WellFormed

/-!
Descriptors and the files they were opened on.  A descriptor keeps a cluster and a path, and nothing
tells it when its file is deleted or stored anew, so a later write goes to whatever has the cluster
and the path by then.
-/

namespace ArcadiaOs.Fs

open Lib

namespace VfsManager

theorem find_advance_other {vfs : VfsManager} {fd other : Nat} {file : FileDescriptor}
    (same : file.fd = fd) (apart : other ≠ fd) :
    (vfs.advance fd file).fileTable.find? (fun file => file.fd = other) =
      vfs.fileTable.find? (fun file => file.fd = other) := by
  simp only [advance]
  generalize vfs.fileTable = files
  induction files with
  | nil => rfl
  | cons first rest ih =>
      by_cases here : first.fd = fd
      · have foreign : ¬first.fd = other := fun met => apart (met.symm.trans here)
        have foreign' : ¬file.fd = other := fun met => apart (met.symm.trans same)
        simp only [List.findIdx_cons, here, decide_true, cond_true, List.set_cons_zero]
        rw [List.find?_cons_of_neg (by simpa using foreign'),
          List.find?_cons_of_neg (by simpa using foreign)]
      · simp only [List.findIdx_cons, here, decide_false, cond_false, List.set_cons_succ]
        by_cases met : first.fd = other
        · rw [List.find?_cons_of_pos (by simpa using met), List.find?_cons_of_pos (by simpa using met)]
        · rw [List.find?_cons_of_neg (by simpa using met), List.find?_cons_of_neg (by simpa using met),
            ih]

theorem advance_cluster {vfs : VfsManager} {fd : Nat} {held file' : FileDescriptor}
    (search : vfs.fileTable.find? (fun file => file.fd = fd) = some held) (same : file'.fd = held.fd)
    (cluster : file'.cluster = held.cluster) {other : Nat} {file : FileDescriptor}
    (found : (vfs.advance fd file').fileTable.find? (fun file => file.fd = other) = some file) :
    ∃ older, vfs.fileTable.find? (fun file => file.fd = other) = some older ∧
      older.cluster = file.cluster := by
  have own : file'.fd = fd := same.trans (by simpa using List.find?_some search)
  by_cases here : other = fd
  · subst here
    rw [find_advance search own, Option.some.injEq] at found
    exact ⟨held, search, found ▸ cluster.symm⟩
  · rw [find_advance_other own here] at found
    exact ⟨file, found, rfl⟩

theorem find_close {vfs : VfsManager} {fd other : Nat} {file : FileDescriptor}
    (found : (vfs.close fd).fileTable.find? (fun file => file.fd = other) = some file) :
    vfs.fileTable.find? (fun file => file.fd = other) = some file := by
  simp only [close] at found
  generalize vfs.fileTable = files at found ⊢
  induction files with
  | nil => cases found
  | cons first rest ih =>
      by_cases gone : first.fd = fd
      · rw [List.filter_cons_of_neg (by simpa using gone)] at found
        have later := ih found
        have apart : ¬first.fd = other := by
          rintro rfl
          have member := List.mem_of_find?_eq_some found
          have held := List.find?_some found
          have kept := (List.mem_filter.mp member).2
          simp only [decide_eq_true_eq] at held kept
          exact kept (held.trans gone)
        rw [List.find?_cons_of_neg (by simpa using apart), later]
      · rw [List.filter_cons_of_pos (by simpa using gone)] at found
        by_cases met : first.fd = other
        · rw [List.find?_cons_of_pos (by simpa using met)] at found ⊢
          exact found
        · rw [List.find?_cons_of_neg (by simpa using met)] at found ⊢
          exact ih found

end VfsManager

theorem Volume.Names.sparesDots {fs : Fat32Fs} {volume : Volume} {path : Path} {position : Position}
    (names : volume.Names fs path position) (plain : ¬IsDot (volume.entry position)) :
    volume.SparesDots fs path := by
  obtain ⟨dir, parent, found⟩ := names.found
  intro other place otherParent otherFound dot
  obtain rfl := Except.ok.inj (parent.symm.trans otherParent)
  obtain rfl := Option.some.inj (found.symm.trans otherFound)
  exact absurd dot plain

namespace Session

/-- A call takes no number back, and a number that was given out stays with its cluster. -/
theorem step_table (session : Session) (call : Call) :
    session.vfs.nextFd ≤ (session.step call).2.vfs.nextFd ∧
      ∀ fd file, fd < session.vfs.nextFd →
        (session.step call).2.vfs.fileTable.find? (fun file => file.fd = fd) = some file →
        ∃ older, session.vfs.fileTable.find? (fun file => file.fd = fd) = some older ∧
          older.cluster = file.cluster := by
  have same : session.vfs.nextFd ≤ session.vfs.nextFd ∧ ∀ fd file, fd < session.vfs.nextFd →
      session.vfs.fileTable.find? (fun file => file.fd = fd) = some file →
      ∃ older, session.vfs.fileTable.find? (fun file => file.fd = fd) = some older ∧
        older.cluster = file.cluster :=
    ⟨Nat.le_refl _, fun _ file _ found => ⟨file, found, rfl⟩⟩
  cases call with
  | openFile path mode =>
      simp only [step]
      split
      · rename_i fd vfs device opened
        obtain ⟨size, cluster, rfl⟩ := VfsManager.openFile_ok opened
        refine ⟨Nat.le_succ _, fun other file given found => ?_⟩
        simp only [VfsManager.addDescriptor, List.find?_append] at found
        cases older : session.vfs.fileTable.find? (fun file => file.fd = other) with
        | some held =>
            rw [older, Option.some_or] at found
            exact ⟨held, rfl, congrArg FileDescriptor.cluster (Option.some.inj found)⟩
        | none =>
            rw [older, Option.none_or,
              List.find?_cons_of_neg (by simpa using (Nat.ne_of_lt given).symm)] at found
            cases found
      · exact same
  | write fd data =>
      simp only [step, settle_vfs, VfsManager.write]
      split
      · exact same
      rename_i held search
      split
      · exact same
      split
      · exact same
      split
      all_goals
        refine ⟨Nat.le_refl _, fun _ _ _ found => VfsManager.advance_cluster search ?_ ?_ found⟩
        · rfl
        · rfl
  | close fd =>
      exact ⟨Nat.le_refl _, fun _ file _ found => ⟨file, VfsManager.find_close found, rfl⟩⟩
  | read fd room => simpa only [step, settle_vfs] using same
  | createFile path data => simpa only [step, settle_vfs] using same
  | mkdir path => simpa only [step, settle_vfs] using same
  | delete path => simpa only [step, settle_vfs] using same

/-- The event is an `open` that answers with the descriptor, and the file at the position is the one
it opened: it starts at the cluster of the descriptor, and if there is none, the path of the
descriptor leads to it. -/
def Opens (fs : Fat32Fs) (fd : Nat) (position : Position) (event : Event Session Call Answer) : Prop :=
  ∃ path mode file, event.call = .openFile path mode ∧ event.answer = .ok (.descriptor fd) ∧
    event.after.vfs.fileTable.find? (fun file => file.fd = fd) = some file ∧
    (fs.view event.after.device).Starts fs file position ∧
    (file.cluster < 2 → (fs.view event.after.device).Names fs file.path position)

/-- The event neither deletes the file at the position nor stores it anew, and it is still there. -/
structure Keeps (fs : Fat32Fs) (position : Position) (event : Event Session Call Answer) : Prop where
  live : (fs.view event.after.device).Live fs (.slot position)
  untaken : ∀ path, (fs.view event.before.device).Names fs path position →
    event.answer = .ok .done → event.call ≠ .delete path ∧ ∀ data, event.call ≠ .createFile path data

/-- The descriptor was opened on the file at the position, and that file has been kept since. -/
def Stands (fs : Fat32Fs) (past : List (Event Session Call Answer)) (fd : Nat)
    (position : Position) : Prop :=
  ∃ front opening between, past = front ++ opening :: between ∧ Opens fs fd position opening ∧
    ∀ event ∈ between, Keeps fs position event

/-- A write changes nothing that is read of a file other than the one its descriptor was opened on.
If that file is gone, it changes nothing that is read of any file, nor what a directory lists. -/
def Isolated (fs : Fat32Fs) (past : List (Event Session Call Answer)) (session : Session) :
    Call → Prop
  | .write fd data =>
      let after := (session.step (.write fd data)).2
      (∀ path position, (fs.view session.device).Names fs path position →
        ((fs.view session.device).entry position).isDirectory = false →
        ¬Stands fs past fd position →
        (after.vfs.readFileContent path).answer after.device =
          (session.vfs.readFileContent path).answer session.device) ∧
      ((∀ position, ¬Stands fs past fd position) → ∀ path,
        (fs.view session.device).throughDirs fs (pathComponents path) fs.bpb.rootCluster.toNat =
          true →
        (after.vfs.listDir path).answer after.device =
          (session.vfs.listDir path).answer session.device)
  | _ => True

/-- A careful call; for a write, its descriptor keeps off the files it was not opened on. -/
def Mindful (fs : Fat32Fs) (past : List (Event Session Call Answer)) (session : Session) :
    Call → Prop
  | .write fd data => ∀ file,
      session.vfs.fileTable.find? (fun file => file.fd = fd) = some file → file.mode ≠ .read →
      (fs.view session.device).Apart fs (Stands fs past fd) file data
  | call => Careful fs session.vfs (fs.view session.device) call

/-- A usable session in which every standing file starts at the cluster of its descriptor. -/
structure Accounted (fs : Fat32Fs) (past : List (Event Session Call Answer)) (session : Session) :
    Prop where
  ready : session.Ready fs
  numbered : session.vfs.Numbered
  given : ∀ fd position, Stands fs past fd position → fd < session.vfs.nextFd
  starts : ∀ fd file position, Stands fs past fd position →
    session.vfs.fileTable.find? (fun file => file.fd = fd) = some file →
    (fs.view session.device).Starts fs file position

variable {fs : Fat32Fs} {past : List (Event Session Call Answer)} {session : Session}

theorem stands_nil (fd : Nat) (position : Position) : ¬Stands fs [] fd position := by
  rintro ⟨front, opening, between, split, _⟩
  cases front with
  | nil => cases split
  | cons first rest => cases split

theorem stands_append (fd : Nat) (position : Position) (event : Event Session Call Answer) :
    Stands fs (past ++ [event]) fd position ↔
      Opens fs fd position event ∨ Stands fs past fd position ∧ Keeps fs position event := by
  constructor
  · rintro ⟨front, opening, between, split, opens, keeps⟩
    rcases List.eq_nil_or_concat between with rfl | ⟨early, last, rfl⟩
    · obtain ⟨_, same⟩ := List.append_inj' split rfl
      obtain rfl := List.singleton_inj.mp same
      exact .inl opens
    · have grouped : front ++ opening :: early.concat last = (front ++ opening :: early) ++ [last] := by
        simp
      obtain ⟨rfl, same⟩ := List.append_inj' (split.trans grouped) rfl
      obtain rfl := List.singleton_inj.mp same
      rw [List.concat_eq_append] at keeps
      exact .inr ⟨⟨front, opening, early, rfl, opens, fun other member =>
        keeps other (List.mem_append_left _ member)⟩, keeps event (List.mem_append_right _ List.mem_cons_self)⟩
  · rintro (opens | ⟨⟨front, opening, between, rfl, opens, keeps⟩, kept⟩)
    · exact ⟨past, event, [], rfl, opens, fun _ member => absurd member List.not_mem_nil⟩
    · refine ⟨front, opening, between ++ [event], by rw [List.append_assoc]; rfl, opens, ?_⟩
      intro other member
      rcases List.mem_append.mp member with early | last
      · exact keeps other early
      · rw [List.mem_singleton.mp last]
        exact kept

theorem Keeps.not_deleted {position : Position} {before after : Session} {path : Path}
    {answer : Answer} (kept : Keeps fs position ⟨before, .delete path, answer, after⟩)
    (names : (fs.view before.device).Names fs path position) : answer ≠ .ok .done :=
  fun done => (kept.untaken path names done).1 rfl

theorem stands_step (start : Session) (calls : List Call) (call : Call) (fd : Nat)
    (position : Position) :
    let event : Event Session Call Answer := ⟨machine.final start calls, call,
      ((machine.final start calls).step call).1, ((machine.final start calls).step call).2⟩
    Stands fs (machine.events start (calls ++ [call])) fd position ↔
      Opens fs fd position event ∨
        Stands fs (machine.events start calls) fd position ∧ Keeps fs position event := by
  rw [machine.events_append]
  exact stands_append fd position _

theorem lawful_step (law : List (Event Session Call Answer) → Session → Call → Prop)
    (start : Session) (calls : List Call) (call : Call) :
    machine.Lawful law [] start (calls ++ [call]) ↔ machine.Lawful law [] start calls ∧
      law (machine.events start calls) (machine.final start calls) call := by
  rw [machine.lawful_append]
  exact and_congr_right fun _ => iff_of_eq (and_true _)

theorem Mindful.cases {call : Call} (mindful : Mindful fs past session call) :
    (∃ fd data, call = .write fd data) ∨
      Careful fs session.vfs (fs.view session.device) call := by
  cases call with
  | write fd data => exact .inl ⟨fd, data, rfl⟩
  | openFile path mode => exact .inr mindful
  | read fd room => exact .inr mindful
  | close fd => exact .inr mindful
  | createFile path data => exact .inr mindful
  | mkdir path => exact .inr mindful
  | delete path => exact .inr mindful

theorem delete_done (geometry : fs.Geometry) (ready : session.Ready fs) {path : Path}
    (careful : Careful fs session.vfs (fs.view session.device) (.delete path))
    (done : ((fs.view session.device).delete fs path).1 = .ok ()) :
    (session.step (.delete path)).1 = .ok .done := by
  have ran := ready.mounted.delete_runs geometry ready.sound careful.1
    fun dir position parent found =>
      Mounted.chain_of_spared geometry ready.sound careful.1 careful.2 parent found
  have answer := settle_answer ran ready.healthy rfl session.vfs fun _ => Reply.done
  rw [done] at answer
  exact answer

section Steps

variable (geometry : fs.Geometry) (accounted : Accounted fs past session) {call : Call}
  (mindful : Mindful fs past session call)
include geometry accounted

omit geometry in
theorem Accounted.apart {fd : Nat} {data : List UInt8}
    (mindful : Mindful fs past session (.write fd data)) {file : FileDescriptor}
    (search : session.vfs.fileTable.find? (fun file => file.fd = fd) = some file)
    (writing : file.mode ≠ .read) :
    (∀ position, Stands fs past fd position →
        (fs.view session.device).Starts fs file position) ∧
      (fs.view session.device).Apart fs (Stands fs past fd) file data :=
  ⟨fun position stands => accounted.starts fd file position stands search,
    mindful file search writing⟩

theorem Accounted.writeReady {fd : Nat} {data : List UInt8}
    (mindful : Mindful fs past session (.write fd data)) :
    (fs.view session.device).WriteReady fs session.vfs fd data := by
  intro file search writing
  obtain ⟨starts, apart⟩ := accounted.apart mindful search writing
  exact apart.ready geometry accounted.ready.sound starts

include mindful

theorem Accounted.shows : Shows fs (session.step call).2
      (after fs session.vfs (fs.view session.device) call).1
      (after fs session.vfs (fs.view session.device) call).2 ∧ (session.step call).2.Ready fs := by
  have ready := accounted.ready
  rcases mindful.cases with ⟨fd, data, rfl⟩ | careful
  · have writeReady := accounted.writeReady geometry mindful
    have shaped := Fat32Fs.length_view_data geometry session.device
    have shows' := write_shows geometry ready.mounted ready.healthy writeReady
    refine ⟨shows', ?_, shows'.healthy, ?_⟩
    · rw [shows'.vfs]
      exact after_mounted ready.mounted _ _
    · rw [shows'.volume]
      exact write_sound geometry shaped ready.sound writeReady
  · exact ⟨step_shows geometry ready careful, step_ready geometry ready careful⟩

theorem Accounted.keeps {position : Position}
    (slot : (fs.view session.device).Live fs (.slot position))
    (kept : Keeps fs position
      ⟨session, call, (session.step call).1, (session.step call).2⟩) :
    let entry := (fs.view (session.step call).2.device).entry position
    entry.isDirectory = ((fs.view session.device).entry position).isDirectory ∧
      entry.firstCluster = ((fs.view session.device).entry position).firstCluster := by
  have sound := accounted.ready.sound
  have shaped := Fat32Fs.length_view_data geometry session.device
  have untaken := kept.untaken
  simp only [(accounted.shows geometry mindful).1.volume]
  have same {volume' : Volume}
      (entry : volume'.entry position = (fs.view session.device).entry position) :
      (volume'.entry position).isDirectory =
          ((fs.view session.device).entry position).isDirectory ∧
        (volume'.entry position).firstCluster =
          ((fs.view session.device).entry position).firstCluster := by
    rw [entry]
    exact ⟨rfl, rfl⟩
  cases call with
  | openFile path mode =>
      rw [after_openFile]
      exact same (Volume.openFile_slot geometry shaped sound slot mindful mode)
  | read fd room => exact ⟨rfl, rfl⟩
  | write fd data =>
      rcases after_write session.vfs (fs.view session.device) fd data with unchanged |
        ⟨file, search, writing, stored | recorded⟩
      · rw [unchanged]
        exact ⟨rfl, rfl⟩
      all_goals
        obtain ⟨starts, apart⟩ := accounted.apart mindful search writing
        obtain ⟨entry, record⟩ := apart.record geometry sound starts shaped slot
      · rw [stored]
        exact same entry
      · rw [recorded]
        exact record
  | close fd => exact ⟨rfl, rfl⟩
  | createFile path data =>
      rcases Volume.createFile_slot geometry shaped sound slot mindful data with entry | ⟨done, names⟩
      · exact same entry
      · have ran := accounted.ready.mounted.createFile_runs geometry sound mindful data
        have answer := settle_answer ran accounted.ready.healthy rfl session.vfs fun _ => Reply.done
        rw [done] at answer
        exact absurd rfl ((untaken path names answer).2 data)
  | mkdir path => exact same (Volume.mkdir_slot geometry shaped sound slot mindful)
  | delete path =>
      rcases Volume.delete_slot geometry shaped sound mindful.1 with entry | ⟨done, names⟩
      · exact same entry
      · exact absurd (delete_done geometry accounted.ready mindful done) (kept.not_deleted names)

theorem Accounted.step : Accounted fs
    (past ++ [⟨session, call, (session.step call).1, (session.step call).2⟩])
    (session.step call).2 := by
  obtain ⟨noLess, table⟩ := session.step_table call
  have numbered' := step_numbered accounted.numbered call
  refine ⟨(accounted.shows geometry mindful).2, numbered', fun fd position stands => ?_,
    fun fd file position stands search => ?_⟩
  · rcases (stands_append fd position _).mp stands with ⟨_, _, file, _, _, found, _⟩ | ⟨older, _⟩
    · have own : file.fd = fd := by simpa using List.find?_some found
      exact own ▸ numbered' file (List.mem_of_find?_eq_some found)
    · exact Nat.lt_of_lt_of_le (accounted.given fd position older) noLess
  · rcases (stands_append fd position _).mp stands with ⟨_, _, opened, _, _, found, starts, _⟩ |
      ⟨older, kept⟩
    · obtain rfl : opened = file := Option.some.inj (found.symm.trans search)
      exact starts
    · obtain ⟨held, heldSearch, cluster⟩ := table fd file (accounted.given fd position older) search
      obtain ⟨slot, regular, start⟩ := accounted.starts fd held position older heldSearch
      obtain ⟨kind, first⟩ := accounted.keeps geometry mindful slot kept
      exact ⟨kept.live, kind.trans regular, (first.trans start).trans cluster⟩

omit mindful in
theorem Accounted.spares {fd : Nat} {data : List UInt8}
    (mindful : Mindful fs past session (.write fd data)) :
    (fs.view session.device).Spares fs (fs.view (session.step (.write fd data)).2.device)
      (Stands fs past fd) := by
  have sound := accounted.ready.sound
  have shaped := Fat32Fs.length_view_data geometry session.device
  rw [(accounted.shows geometry mindful).1.volume]
  rcases after_write session.vfs (fs.view session.device) fd data with unchanged |
    ⟨file, search, writing, stored | recorded⟩
  · rw [unchanged]
    exact Volume.Spares.refl fs _ _
  all_goals obtain ⟨starts, apart⟩ := accounted.apart mindful search writing
  · rw [stored]
    exact apart.stored geometry sound starts _
  · rw [recorded]
    exact apart.recorded geometry sound starts shaped

theorem Accounted.isolated : Isolated fs past session call := by
  cases call with
  | write fd data =>
      have spares := accounted.spares geometry mindful
      have ready' := (accounted.shows geometry mindful).2
      obtain ⟨mounted, healthy, sound⟩ := accounted.ready
      obtain ⟨mounted', healthy', sound'⟩ := ready'
      constructor
      · intro path position names regular other
        have proper' := spares.dirs.properPath geometry sound names.proper
        rw [(mounted'.readFileContent_runs geometry sound' proper').answer_eq healthy' rfl,
          (mounted.readFileContent_runs geometry sound names.proper).answer_eq healthy rfl,
          spares.reads geometry sound names regular other]
      · intro gone path proper
        have proper' := (spares.dirs.walk geometry sound Volume.liveDir_root proper).2
        rw [(mounted'.listDir_runs geometry sound' proper').answer_eq healthy' rfl,
          (mounted.listDir_runs geometry sound proper).answer_eq healthy rfl,
          spares.lists geometry sound gone proper]
  | openFile path mode => exact trivial
  | read fd room => exact trivial
  | close fd => exact trivial
  | createFile path data => exact trivial
  | mkdir path => exact trivial
  | delete path => exact trivial

end Steps

/-- In a run of mindful calls every write is isolated. -/
theorem descriptor_isolation (geometry : fs.Geometry) (ready : session.Ready fs)
    (numbered : session.vfs.Numbered) {calls : List Call}
    (mindful : machine.Lawful (Mindful fs) [] session calls) :
    machine.Lawful (Isolated fs) [] session calls := by
  refine machine.lawful_of_lawful (Mindful fs) (Isolated fs) (Accounted fs)
    (fun past state call accounted met => accounted.isolated geometry met)
    (fun past state call accounted met => accounted.step geometry met) [] session calls ?_ mindful
  exact ⟨ready, numbered, fun fd position stands => absurd stands (stands_nil fd position),
    fun fd file position stands => absurd stands (stands_nil fd position)⟩

theorem opens_named (geometry : fs.Geometry) (ready : session.Ready fs)
    (numbered : session.vfs.Numbered) {path : Path} {position : Position}
    (names : (fs.view session.device).Names fs (session.vfs.canonicalize path) position)
    (regular : ((fs.view session.device).entry position).isDirectory = false) {mode : FileMode}
    (reuses : mode ≠ .createNew) :
    let call := Call.openFile path mode
    Opens fs session.vfs.nextFd position
      ⟨session, call, (session.step call).1, (session.step call).2⟩ := by
  obtain ⟨mounted, healthy, sound⟩ := ready
  obtain ⟨dir, parent, found⟩ := names.found
  have live := names.live geometry sound regular
  generalize held : (fs.view session.device).entry position = entry at regular
  have opened : (fs.view session.device).openFile fs session.vfs path mode =
      (.ok (session.vfs.nextFd, session.vfs.addDescriptor (session.vfs.canonicalize path) mode
        entry.fileSize.toNat entry.firstCluster), fs.view session.device) := by
    have file : ¬entry.isDirectory = true := by simp [regular]
    simp only [Volume.openFile, parent, if_neg names.named, found]
    cases mode with
    | createNew => exact absurd rfl reuses
    | read => simp only [held, if_neg file]
    | write => simp only [held, if_neg file]
    | create => simp only [held, if_neg file]
  obtain ⟨device', ran, _, holds⟩ :=
    mounted.openFile_runs geometry sound names.proper mode session.device healthy rfl
  rw [opened] at ran holds
  have stepped : session.step (.openFile path mode) = (.ok (.descriptor session.vfs.nextFd),
      ⟨session.vfs.addDescriptor (session.vfs.canonicalize path) mode entry.fileSize.toNat
        entry.firstCluster, device'⟩) := by
    simp only [step, ran]
    rfl
  have search := VfsManager.find_addDescriptor numbered (session.vfs.canonicalize path) mode
    entry.fileSize.toNat entry.firstCluster
  simp only [stepped]
  refine ⟨path, mode, _, rfl, rfl, search, ?_, fun _ => ?_⟩
  · simp only [holds]
    exact ⟨live, held ▸ regular, congrArg Fat32DirEntry.firstCluster held⟩
  · simp only [holds]
    exact names

end Session

/-! A file that is opened for writing, written, and deleted. -/

def storingCalls : List Call := [.createFile [0x2F, 0x41] [1]]

def openingCalls : List Call := storingCalls ++ [.openFile [0x2F, 0x41] .write]

def rewritingCalls : List Call := openingCalls ++ [.write 1 [9]]

def deletingCalls : List Call := rewritingCalls ++ [.delete [0x2F, 0x41]]

def sessionAfter (calls : List Call) : Session := Session.machine.final blankSession calls

def shownAfter (calls : List Call) : VfsManager × Volume :=
  Session.afterAll smallFs blankSession.vfs (smallFs.view blankDevice) calls

def CarefulCalls (calls : List Call) : Prop :=
  Session.CarefulAll smallFs blankSession.vfs (smallFs.view blankDevice) calls

theorem sessionAfter_append (calls : List Call) (call : Call) :
    sessionAfter (calls ++ [call]) = ((sessionAfter calls).step call).2 :=
  Session.machine.final_append blankSession calls [call]

theorem blank_numbered : blankSession.vfs.Numbered := by
  intro file member
  cases member

theorem shows_after {calls : List Call} (careful : CarefulCalls calls) :
    (sessionAfter calls).Ready smallFs ∧ Session.Shows smallFs (sessionAfter calls)
      (shownAfter calls).1 (shownAfter calls).2 :=
  Session.final_shows smallFs_geometry blank_ready ⟨rfl, blank_ready.healthy, rfl⟩ careful

theorem careful_after {calls : List Call} (before : CarefulCalls calls) {call : Call}
    (careful : Session.Careful smallFs (shownAfter calls).1 (shownAfter calls).2 call) :
    Session.Careful smallFs (sessionAfter calls).vfs (smallFs.view (sessionAfter calls).device)
      call := by
  obtain ⟨sameVfs, _, holds⟩ := (shows_after before).2
  rw [sameVfs, holds]
  exact careful

theorem names_after {calls : List Call} (before : CarefulCalls calls) {path : Path}
    {position : Position} (names : (shownAfter calls).2.Names smallFs path position) :
    (smallFs.view (sessionAfter calls).device).Names smallFs path position := by
  rw [(shows_after before).2.volume]
  exact names

theorem storing_careful : CarefulCalls storingCalls :=
  ⟨show (smallFs.view blankDevice).ProperPath smallFs [0x2F, 0x41] by decide, trivial⟩

theorem stored_names : (shownAfter storingCalls).2.Names smallFs [0x2F, 0x41] (2, 0) :=
  ⟨by decide, by decide, 2, by decide, by decide⟩

theorem opening_careful : CarefulCalls openingCalls :=
  ⟨storing_careful.1, stored_names.proper, trivial⟩

theorem opened_names : (shownAfter openingCalls).2.Names smallFs [0x2F, 0x41] (2, 0) :=
  ⟨by decide, by decide, 2, by decide, by decide⟩

theorem opened_held : (shownAfter openingCalls).1.fileTable.find? (fun file => file.fd = 1) =
    some ⟨1, [0x2F, 0x41], .write, 0, 1, 3⟩ := by decide

theorem opening_stands :
    Session.Stands smallFs (Session.machine.events blankSession openingCalls) 1 (2, 0) := by
  refine (Session.stands_step blankSession storingCalls _ 1 (2, 0)).mpr (.inl ?_)
  obtain ⟨ready, shows'⟩ := shows_after storing_careful
  have names := names_after storing_careful stored_names
  have regular : ((smallFs.view (sessionAfter storingCalls).device).entry (2, 0)).isDirectory =
      false := by
    rw [shows'.volume]
    decide
  have same : (sessionAfter storingCalls).vfs = blankSession.vfs := shows'.vfs
  have numbered := blank_numbered
  have path : blankSession.vfs.canonicalize [0x2F, 0x41] = [0x2F, 0x41] := by decide
  have next : blankSession.vfs.nextFd = 1 := rfl
  rw [← same] at numbered path next
  rw [← path] at names
  rw [← next]
  exact Session.opens_named smallFs_geometry ready numbered names regular (by decide)

theorem rewriting_careful : CarefulCalls rewritingCalls := by
  refine ⟨storing_careful.1, stored_names.proper, fun file search _ => ?_, trivial⟩
  obtain ⟨⟨_, _, sound⟩, _, _, holds⟩ := shows_after opening_careful
  rw [holds] at sound
  obtain rfl := Option.some.inj (opened_held.symm.trans search)
  have current : (shownAfter openingCalls).2.Current smallFs ⟨1, [0x2F, 0x41], .write, 0, 1, 3⟩ :=
    ⟨(2, 0), opened_names, by decide, by decide⟩
  exact ⟨current.writable smallFs_geometry sound, opened_names.proper⟩

theorem rewritten_careful : Session.Careful smallFs (shownAfter rewritingCalls).1
    (shownAfter rewritingCalls).2 (.delete [0x2F, 0x41]) := by
  have names : (shownAfter rewritingCalls).2.Names smallFs [0x2F, 0x41] (2, 0) :=
    ⟨by decide, by decide, 2, by decide, by decide⟩
  exact ⟨names.proper, names.sparesDots (by decide)⟩

theorem deleting_careful : CarefulCalls deletingCalls :=
  ⟨storing_careful.1, stored_names.proper, rewriting_careful.2.2.1, rewritten_careful, trivial⟩

/-- The cluster of the descriptor is free again, and its path leads nowhere. -/
theorem deleted_state : (shownAfter deletingCalls).1.fileTable.find? (fun file => file.fd = 1) =
      some ⟨1, [0x2F, 0x41], .write, 1, 1, 3⟩ ∧
    (shownAfter deletingCalls).2.fat 3 = 0 ∧ (shownAfter deletingCalls).2.chainOf 3 = [3] ∧
    (shownAfter deletingCalls).2.ProperPath smallFs [0x2F, 0x41] ∧
    (shownAfter deletingCalls).2.parentOf smallFs [0x2F, 0x41] = .ok 2 ∧
    (shownAfter deletingCalls).2.findIn smallFs 2 [0x2F, 0x41] = none := by
  decide

theorem opened_mindful : Session.Mindful smallFs
    (Session.machine.events blankSession openingCalls) (sessionAfter openingCalls)
    (.write 1 [9]) := by
  have names := names_after opening_careful opened_names
  intro file search _
  rw [(shows_after opening_careful).2.vfs] at search
  obtain rfl := Option.some.inj (opened_held.symm.trans search)
  exact ⟨.inl ⟨(2, 0), opening_stands⟩, fun _ => ⟨names.proper, fun position found =>
    .inl (names.unique found ▸ opening_stands)⟩⟩

theorem deleted_mindful (past : List (Event Session Call Answer)) :
    Session.Mindful smallFs past (sessionAfter deletingCalls) (.write 1 [7]) := by
  obtain ⟨sameVfs, _, holds⟩ := (shows_after deleting_careful).2
  obtain ⟨held, free, read, proper, parent, gone⟩ := deleted_state
  rw [← holds] at free read proper parent gone
  intro file search _
  rw [sameVfs] at search
  obtain rfl := Option.some.inj (held.symm.trans search)
  refine ⟨.inr fun cluster member => ?_, fun _ => ⟨proper, fun position names => ?_⟩⟩
  · rw [read, List.mem_singleton] at member
    subst member
    exact ⟨by decide, fun claimed => claimed.not_free free⟩
  · obtain ⟨dir, reached, found⟩ := names.found
    obtain rfl := Except.ok.inj (parent.symm.trans reached)
    rw [gone] at found
    cases found

/-- A write to the open file, and one after it was deleted, which goes to the free cluster. -/
theorem descriptor_isolation_deleted : Session.machine.Lawful (Session.Isolated smallFs) []
    blankSession (deletingCalls ++ [.write 1 [7]]) := by
  refine Session.descriptor_isolation smallFs_geometry blank_ready blank_numbered ?_
  refine (Session.lawful_step _ _ _ _).mpr ⟨?_, deleted_mindful _⟩
  refine (Session.lawful_step _ _ rewritingCalls _).mpr
    ⟨?_, careful_after rewriting_careful rewritten_careful⟩
  refine (Session.lawful_step _ _ openingCalls _).mpr ⟨?_, opened_mindful⟩
  refine (Session.lawful_step _ _ storingCalls _).mpr
    ⟨⟨storing_careful.1, trivial⟩, careful_after storing_careful opening_careful.2.1⟩

/-! Another file is made in the cluster of the deleted one. -/

def emptyingCalls : List Call := openingCalls ++ [.delete [0x2F, 0x41]]

def reusingCalls : List Call := emptyingCalls ++ [.createFile [0x2F, 0x42] [2]]

theorem opened_careful : Session.Careful smallFs (shownAfter openingCalls).1
    (shownAfter openingCalls).2 (.delete [0x2F, 0x41]) :=
  ⟨opened_names.proper, opened_names.sparesDots (by decide)⟩

theorem reusing_careful : CarefulCalls reusingCalls := by
  refine ⟨storing_careful.1, stored_names.proper, opened_careful, ?_, trivial⟩
  exact show (shownAfter emptyingCalls).2.ProperPath smallFs [0x2F, 0x42] by decide

theorem reused_names : (shownAfter reusingCalls).2.Names smallFs [0x2F, 0x42] (2, 0) :=
  ⟨by decide, by decide, 2, by decide, by decide⟩

theorem reused_state : (shownAfter reusingCalls).1.fileTable.find? (fun file => file.fd = 1) =
      some ⟨1, [0x2F, 0x41], .write, 0, 1, 3⟩ ∧
    (shownAfter reusingCalls).2.ProperPath smallFs [0x2F, 0x41] ∧
    ((shownAfter reusingCalls).2.entry (2, 0)).isDirectory = false ∧
    ((shownAfter reusingCalls).2.entry (2, 0)).firstCluster = 3 ∧
    (shownAfter reusingCalls).2.readContent smallFs [0x2F, 0x42] = .ok [2] := by
  decide

theorem stale_careful : CarefulCalls (reusingCalls ++ [.write 1 [9]]) := by
  obtain ⟨first, second, third, fourth, _⟩ := reusing_careful
  refine ⟨first, second, third, fourth, fun file search _ => ?_, trivial⟩
  obtain ⟨⟨_, _, sound⟩, _, _, holds⟩ := shows_after reusing_careful
  obtain ⟨held, proper, regular, start, _⟩ := reused_state
  rw [holds] at sound
  obtain rfl := Option.some.inj (held.symm.trans search)
  exact ⟨.inr ⟨(2, 0), reused_names.live smallFs_geometry sound regular, regular, start⟩, proper⟩

theorem stale_state :
    (shownAfter (reusingCalls ++ [.write 1 [9]])).2.ProperPath smallFs [0x2F, 0x42] ∧
    (shownAfter (reusingCalls ++ [.write 1 [9]])).2.readContent smallFs [0x2F, 0x42] = .ok [9] := by
  decide

theorem reads_after {calls : List Call} (careful : CarefulCalls calls) {path : Path}
    (proper : (shownAfter calls).2.ProperPath smallFs path) {content : List UInt8}
    (read : (shownAfter calls).2.readContent smallFs path = .ok content) :
    ((sessionAfter calls).vfs.readFileContent path).answer (sessionAfter calls).device =
      .ok content := by
  obtain ⟨⟨mounted, healthy, sound⟩, _, _, holds⟩ := shows_after careful
  rw [← holds] at proper read
  rw [(mounted.readFileContent_runs smallFs_geometry sound proper).answer_eq healthy rfl, read]
  rfl

theorem reusing_stale :
    ¬Session.Stands smallFs (Session.machine.events blankSession reusingCalls) 1 (2, 0) := by
  obtain ⟨ready, shows'⟩ := shows_after opening_careful
  have done : ((smallFs.view (sessionAfter openingCalls).device).delete smallFs [0x2F, 0x41]).1 =
      .ok () := by
    rw [shows'.volume]
    decide
  have answer := Session.delete_done smallFs_geometry ready
    (careful_after opening_careful opened_careful) done
  have names := names_after opening_careful opened_names
  intro stands
  rcases (Session.stands_step blankSession emptyingCalls _ 1 (2, 0)).mp stands with
    ⟨_, _, _, called, _⟩ | ⟨stands, _⟩
  · cases called
  rcases (Session.stands_step blankSession openingCalls _ 1 (2, 0)).mp stands with
    ⟨_, _, _, called, _⟩ | ⟨_, kept⟩
  · cases called
  rw [sessionAfter] at names answer
  exact kept.not_deleted names answer

/-- A write through the descriptor of the deleted file goes to the other one. -/
theorem stale_write_reaches_new_file : blankSession.Ready smallFs ∧
    WellFormed smallFs (smallFs.view blankDevice) ∧
    ¬Session.machine.Lawful (Session.Isolated smallFs) [] blankSession
      (reusingCalls ++ [.write 1 [9]]) := by
  refine ⟨blank_ready, blank_wellFormed, fun lawful => ?_⟩
  obtain ⟨isolated, _⟩ := ((Session.lawful_step _ _ reusingCalls _).mp lawful).2
  have regular : ((smallFs.view (sessionAfter reusingCalls).device).entry (2, 0)).isDirectory =
      false := by
    rw [(shows_after reusing_careful).2.volume]
    exact reused_state.2.2.1
  have same := isolated [0x2F, 0x42] (2, 0) (names_after reusing_careful reused_names) regular
    reusing_stale
  have old := reads_after reusing_careful reused_names.proper reused_state.2.2.2.2
  have new := reads_after stale_careful stale_state.1 stale_state.2
  rw [sessionAfter_append, sessionAfter] at new
  rw [sessionAfter] at old
  rw [new, old] at same
  exact absurd same (by decide)

end ArcadiaOs.Fs
