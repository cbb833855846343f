import Coupling.Proofs.Project.Document
import Coupling.Proofs.Project.PathList
import Coupling.Recent
import Mathlib.Data.List.Induction
import Mathlib.Logic.Relation

/-!
# The list of recent projects over time

A list of recent projects that starts out empty, with no file for it, never lists a
project twice and never exceeds its limit, however it is loaded, touched,
shortened and saved. Paths count as the same project if they have the same
components.

What was saved was such a list, so the file is as good as the list in memory. This
is the invariant that carries over from one load to the next. A list is read back
from its file with its entries as they were written, up to the limit asked for, and
so is a project descriptor.
-/

namespace Coupling

namespace Recent

open Project (removePath removePath_eq_filter removePath_of_absent removePath_cons)

variable {recent : Recent} {path : Path} {disk : Disk}

/-- No project is listed twice. -/
def Distinct (entries : List Path) : Prop :=
  (entries.map Path.components).Nodup

/-- No project is listed twice, and there are not more than allowed. -/
structure Kept (recent : Recent) : Prop where
  distinct : Distinct recent.entries
  length_le : recent.entries.length ≤ recent.limit

theorem Distinct.sublist {entries fewer : List Path} (distinct : Distinct entries)
    (sublist : fewer.Sublist entries) : Distinct fewer :=
  List.Nodup.sublist (sublist.map Path.components) distinct

theorem Distinct.cons_removePath {entries : List Path} (distinct : Distinct entries) (path : Path) :
    Distinct (path :: removePath entries path) := by
  rw [Distinct, List.map_cons, List.nodup_cons]
  constructor
  · simp [removePath_eq_filter]
  · exact distinct.sublist List.filter_sublist

theorem kept_empty (limit : Nat) : (empty limit).Kept :=
  ⟨List.nodup_nil, Nat.zero_le limit⟩

theorem Kept.touch (kept : recent.Kept) (path : Path) : (recent.touch path).Kept :=
  ⟨(kept.distinct.cons_removePath path).sublist (List.take_sublist _ _), List.length_take_le _ _⟩

theorem Kept.forget (kept : recent.Kept) (path : Path) : (recent.forget path).Kept :=
  ⟨kept.distinct.sublist List.filter_sublist,
    Nat.le_trans (List.length_filter_le _ _) kept.length_le⟩

theorem entries_touch (path : Path) (positive : 1 ≤ recent.limit) :
    (recent.touch path).entries =
      path :: (removePath recent.entries path).take (recent.limit - 1) := by
  rcases Nat.exists_eq_add_of_le' positive with ⟨limit, limit_eq⟩
  simp [touch, limit_eq]

theorem lists_iff :
    recent.lists path ↔ ∃ entry ∈ recent.entries, entry.components = path.components := by
  simp [lists, Path.same]

theorem length_forget_ne_iff :
    (recent.forget path).entries.length ≠ recent.entries.length ↔ recent.lists path := by
  rw [Ne, forget, removePath, List.length_filter_eq_length_iff, lists_iff]
  simp [Path.same]

theorem listed_forget (recent : Recent) (path : Path) :
    (recent.forget path).listed = recent.lists path := by
  have listed_iff : (recent.forget path).listed = true ↔
      (recent.forget path).entries.length ≠ recent.entries.length := bne_iff_ne
  rw [Bool.eq_iff_iff, listed_iff, length_forget_ne_iff]

/-- The paths in their order, without those that repeat an earlier one. -/
def withoutRepeats : List Path → List Path
  | [] => []
  | path :: rest => path :: removePath (withoutRepeats rest) path

theorem distinct_withoutRepeats (paths : List Path) : Distinct (withoutRepeats paths) := by
  induction paths with
  | nil => exact List.nodup_nil
  | cons path rest ih => exact ih.cons_removePath path

/-- Of distinct paths at most one is removed, so one more than needed are enough. -/
theorem take_removePath {paths : List Path} (distinct : Distinct paths) (count : Nat) :
    (removePath (paths.take (count + 1)) path).take count =
      (removePath paths path).take count := by
  induction paths generalizing count with
  | nil => rfl
  | cons first rest ih =>
      rw [Distinct, List.map_cons, List.nodup_cons] at distinct
      rw [List.take_succ_cons, removePath_cons, removePath_cons]
      by_cases removed : first.components = path.components
      · have absent : ∀ entry ∈ rest, entry.components ≠ path.components := by
          intro entry entryMem same
          apply distinct.1
          rw [removed, ← same]
          exact List.mem_map_of_mem entryMem
        rw [if_pos removed, if_pos removed, removePath_of_absent absent, removePath_of_absent]
        · rw [List.take_take, Nat.min_self]
        · exact fun entry entryMem => absent entry (List.mem_of_mem_take entryMem)
      · rw [if_neg removed, if_neg removed]
        cases count with
        | zero => rfl
        | succ count => rw [List.take_succ_cons, List.take_succ_cons, ih distinct.2 count]

theorem limit_foldl_touch (limit : Nat) (paths : List Path) :
    (paths.foldl touch (empty limit)).limit = limit := by
  induction paths using List.reverseRecOn with
  | nil => rfl
  | append_singleton paths path ih =>
      rw [List.foldl_append]
      exact ih

theorem entries_foldl_touch (limit : Nat) (paths : List Path) :
    (paths.foldl touch (empty limit)).entries = (withoutRepeats paths.reverse).take limit := by
  induction paths using List.reverseRecOn with
  | nil => simp [empty, withoutRepeats]
  | append_singleton paths path ih =>
      rw [List.foldl_append, List.foldl_cons, List.foldl_nil, touch, ih, limit_foldl_touch,
        List.reverse_append, List.reverse_singleton, List.singleton_append, withoutRepeats]
      cases limit with
      | zero => rfl
      | succ limit =>
          simp only [List.take_succ_cons]
          rw [take_removePath (distinct_withoutRepeats paths.reverse)]

theorem textual_toJson (recent : Recent) : recent.toJson.Textual := by
  apply Json.Textual.record
  simp only [List.mem_singleton, forall_eq]
  exact .texts _

/-- The text of a list gives back the entries of the list. -/
theorem parse?_render (recent : Recent) :
    parse? recent.render = some ⟨recent.entries, defaultLimit⟩ := by
  have fields : recent.toJson.fields? ["entries"] =
      some [some (.texts (recent.entries.map Path.text))] := by rfl
  rw [parse?, render, recent.textual_toJson.parse?_pretty, Option.bind_some, ofJson?, fields]
  simp [Project.pathsFrom?_texts]

/-- What a path leads to is the file of a list. -/
def IsStored (recent : Recent) (disk : Disk) (file : Path) : Prop :=
  disk.node? file = some (.file (Utf8.encode recent.render))

theorem load_of_missing {file : Path} (missing : disk.node? file = none) (limit : Nat) :
    load disk file limit = .ok (empty limit) := by
  simp [load, Disk.contains, missing]

theorem IsStored.load {file : Path} (stored : recent.IsStored disk file) (limit : Nat) :
    load disk file limit = .ok ⟨recent.entries.take limit, limit⟩ := by
  have text : disk.text? file = some recent.render := by
    rw [Disk.text?, stored]
    exact Utf8.decode?_encode _
  have loaded : disk.load .recent file parse? = .ok ⟨recent.entries, defaultLimit⟩ :=
    Disk.load_eq_ok_iff.mpr ⟨_, text, recent.parse?_render⟩
  rw [IsStored] at stored
  simp [Recent.load, Disk.contains, stored, loaded, Except.map]

theorem isStored_of_save {file : Path} {written : Disk}
    (saved : recent.save disk file = .ok written) : recent.IsStored written file := by
  rcases Disk.save_eq_ok_iff.mp saved with ⟨location, targeted, rfl⟩
  exact Disk.node?_holding targeted

end Recent

/-- A project that was saved is loaded as it was, and a list of recent projects up to the limit that
it is loaded with; both can be saved wherever a file can be. Paths keep their texts, although paths
with other texts may count as the same. -/
theorem saved_documents_restored (disk : Disk) (path : Path) :
    (∀ (project : Project) (written : Disk), project.save disk path = .ok written →
      Project.load written path = .ok project) ∧
    (∀ (recent : Recent) (written : Disk), recent.save disk path = .ok written →
      ∀ limit, Recent.load written path limit = .ok ⟨recent.entries.take limit, limit⟩) ∧
    ∀ location, disk.target path = .ok location →
      (∀ project : Project, ∃ written, project.save disk path = .ok written) ∧
      ∀ recent : Recent, ∃ written, recent.save disk path = .ok written := by
  refine ⟨fun project written => project.load_of_save, ?_, ?_⟩
  · intro recent written saved limit
    exact (Recent.isStored_of_save saved).load limit
  · intro location targeted
    constructor
    · exact fun project => Disk.exists_save targeted project.render
    · exact fun recent => Disk.exists_save targeted recent.render

/-- Two texts of one path, the empty path, a quote, a backslash and a line break. -/
theorem awkward_documents_restored :
    (∃ written,
      (Project.mk "\"\\\n" [⟨"a//b"⟩, ⟨"a/b/"⟩] [⟨""⟩]).save (Disk.empty ["work"]) ⟨"p.json"⟩ =
        .ok written ∧
      Project.load written ⟨"p.json"⟩ = .ok ⟨"\"\\\n", [⟨"a//b"⟩, ⟨"a/b/"⟩], [⟨""⟩]⟩) ∧
    ∃ written,
      (Recent.mk [⟨"a//b"⟩, ⟨"\"é\\"⟩, ⟨"a/b"⟩] 9).save (Disk.empty ["work"]) ⟨"p.json"⟩ =
        .ok written ∧
      Recent.load written ⟨"p.json"⟩ 2 = .ok ⟨[⟨"a//b"⟩, ⟨"\"é\\"⟩], 2⟩ := by
  have targeted : (Disk.empty ["work"]).target ⟨"p.json"⟩ = .ok ["work", "p.json"] := by rfl
  rcases saved_documents_restored (Disk.empty ["work"]) ⟨"p.json"⟩ with
    ⟨projects, recents, writable⟩
  rcases (writable _ targeted).1 ⟨"\"\\\n", [⟨"a//b"⟩, ⟨"a/b/"⟩], [⟨""⟩]⟩ with ⟨first, saved⟩
  rcases (writable _ targeted).2 ⟨[⟨"a//b"⟩, ⟨"\"é\\"⟩, ⟨"a/b"⟩], 9⟩ with ⟨second, stored⟩
  exact ⟨⟨first, saved, projects _ _ saved⟩, second, stored, recents _ _ stored 2⟩

/-- A disk and the list of recent projects in memory. -/
structure Session where
  disk : Disk
  recent : Recent

namespace Session

/-- What can happen in a session with a file for the list. The disk may change otherwise, as long as
the path of the file leads to what it led to. -/
inductive Step (file : Path) : Session → Session → Prop where
  | load {disk : Disk} {recent loaded : Recent} (limit : Nat)
      (read : Recent.load disk file limit = .ok loaded) : Step file ⟨disk, recent⟩ ⟨disk, loaded⟩
  | touch (disk : Disk) (recent : Recent) (path : Path) :
      Step file ⟨disk, recent⟩ ⟨disk, recent.touch path⟩
  | forget (disk : Disk) (recent : Recent) (path : Path) :
      Step file ⟨disk, recent⟩ ⟨disk, recent.forget path⟩
  | save {disk written : Disk} {recent : Recent} (saved : recent.save disk file = .ok written) :
      Step file ⟨disk, recent⟩ ⟨written, recent⟩
  | elsewhere {disk changed : Disk} {recent : Recent}
      (same : changed.node? file = disk.node? file) : Step file ⟨disk, recent⟩ ⟨changed, recent⟩

/-- The list is kept well, and so is the one in the file, if there is a file. -/
structure Sound (file : Path) (session : Session) : Prop where
  kept : session.recent.Kept
  stored : session.disk.node? file = none ∨
    ∃ stored : Recent, Recent.Distinct stored.entries ∧ stored.IsStored session.disk file

variable {file : Path} {session next : Session}

theorem Sound.load (sound : session.Sound file) (limit : Nat) :
    ∃ loaded, Recent.load session.disk file limit = .ok loaded ∧ loaded.limit = limit ∧
      loaded.Kept := by
  rcases sound.stored with missing | ⟨stored, distinct, isStored⟩
  · exact ⟨_, Recent.load_of_missing missing limit, rfl, Recent.kept_empty limit⟩
  · refine ⟨_, isStored.load limit, rfl, ?_, ?_⟩
    · exact distinct.sublist (List.take_sublist _ _)
    · exact List.length_take_le _ _

theorem Sound.step (sound : session.Sound file) (step : Step file session next) :
    next.Sound file := by
  cases step with
  | @load disk recent loaded limit read =>
      rcases sound.load limit with ⟨found, foundRead, _, kept⟩
      obtain rfl : found = loaded := by simpa [foundRead] using read
      exact ⟨kept, sound.stored⟩
  | touch disk recent path => exact ⟨sound.kept.touch path, sound.stored⟩
  | forget disk recent path => exact ⟨sound.kept.forget path, sound.stored⟩
  | save saved =>
      exact ⟨sound.kept, Or.inr ⟨_, sound.kept.distinct, Recent.isStored_of_save saved⟩⟩
  | elsewhere same =>
      refine ⟨sound.kept, ?_⟩
      have stored := sound.stored
      simp only [Recent.IsStored] at stored ⊢
      rwa [same]

theorem Sound.run (sound : session.Sound file)
    (run : Relation.ReflTransGen (Step file) session next) : next.Sound file := by
  induction run with
  | refl => exact sound
  | tail _ step ih => exact ih.step step

/-- However a list of recent projects that starts out empty, without a file, is loaded, touched,
shortened and saved, it lists no project twice and keeps to its limit. A touch puts a path in front
of the others, and a path is reported as removed if and only if it was there. After touches alone
the list shows the latest of them first. -/
theorem recent_list_stays_kept (file : Path) (disk : Disk) (limit : Nat)
    (missing : disk.contains file = false) :
    (∀ session, Relation.ReflTransGen (Step file) ⟨disk, .empty limit⟩ session →
      (session.recent.entries.map Path.components).Nodup ∧
      session.recent.entries.length ≤ session.recent.limit ∧
      (∀ most, ∃ loaded, Recent.load session.disk file most = .ok loaded ∧ loaded.limit = most) ∧
      (∀ path, 1 ≤ session.recent.limit →
        (session.recent.touch path).entries =
          path :: (session.recent.entries.filter
            (·.components ≠ path.components)).take (session.recent.limit - 1)) ∧
      ∀ path,
        (session.recent.lists path ↔
          ∃ entry ∈ session.recent.entries, entry.components = path.components) ∧
        (session.recent.lists path ↔
          (session.recent.forget path).entries.length ≠ session.recent.entries.length) ∧
        (session.recent.forget path).listed = session.recent.lists path) ∧
    ∀ paths : List Path, (paths.foldl Recent.touch (.empty limit)).entries =
      (Recent.withoutRepeats paths.reverse).take limit := by
  constructor
  · intro session run
    have start : Sound file ⟨disk, .empty limit⟩ :=
      ⟨Recent.kept_empty limit, Or.inl (by simpa [Disk.contains] using missing)⟩
    have sound := start.run run
    refine ⟨sound.kept.distinct, sound.kept.length_le, ?_, ?_, ?_⟩
    · intro most
      rcases sound.load most with ⟨loaded, read, limited, _⟩
      exact ⟨loaded, read, limited⟩
    · intro path positive
      rw [Recent.entries_touch path positive, Project.removePath_eq_filter]
    · exact fun path => ⟨Recent.lists_iff, Recent.length_forget_ne_iff.symm,
        Recent.listed_forget _ path⟩
  · exact Recent.entries_foldl_touch limit

/-- Three touches, two of them with the same path in different words, then a save and a load with a
smaller limit. -/
theorem recent_list_after_repeated_touch :
    (Disk.empty ["work"]).contains ⟨"r.json"⟩ = false ∧
    ∃ session, Relation.ReflTransGen (Step ⟨"r.json"⟩) ⟨Disk.empty ["work"], .empty 2⟩ session ∧
      session.disk.contains ⟨"r.json"⟩ ∧ session.recent = ⟨[⟨"a/b/"⟩], 1⟩ ∧
      (session.recent.entries.map Path.components).Nodup ∧ session.recent.lists ⟨"a//b"⟩ ∧
      (session.recent.forget ⟨"a//b"⟩).listed ∧
      ([⟨"a//b"⟩, ⟨"c"⟩, ⟨"a/b/"⟩].foldl Recent.touch (.empty 2)).entries =
        (Recent.withoutRepeats [⟨"a/b/"⟩, ⟨"c"⟩, ⟨"a//b"⟩]).take 2 := by
  have missing : (Disk.empty ["work"]).contains ⟨"r.json"⟩ = false := by decide +kernel
  have kept := recent_list_stays_kept ⟨"r.json"⟩ (Disk.empty ["work"]) 2 missing
  have touched : [⟨"a//b"⟩, ⟨"c"⟩, ⟨"a/b/"⟩].foldl Recent.touch (.empty 2) =
      ⟨[⟨"a/b/"⟩, ⟨"c"⟩], 2⟩ := by decide +kernel
  have targeted : (Disk.empty ["work"]).target ⟨"r.json"⟩ = .ok ["work", "r.json"] := by rfl
  have saved : (Recent.mk [⟨"a/b/"⟩, ⟨"c"⟩] 2).save (Disk.empty ["work"]) ⟨"r.json"⟩ = .ok _ :=
    Disk.save_eq_ok_iff.mpr ⟨_, targeted, rfl⟩
  have stored := Recent.isStored_of_save saved
  have started : Relation.ReflTransGen (Step ⟨"r.json"⟩) ⟨Disk.empty ["work"], .empty 2⟩
      ⟨Disk.empty ["work"], [⟨"a//b"⟩, ⟨"c"⟩, ⟨"a/b/"⟩].foldl Recent.touch (.empty 2)⟩ :=
    ((Relation.ReflTransGen.single (.touch _ _ ⟨"a//b"⟩)).tail (.touch _ _ ⟨"c"⟩)).tail
      (.touch _ _ ⟨"a/b/"⟩)
  rw [touched] at started
  have run := (started.tail (.save saved)).tail (.load 1 (stored.load 1))
  rcases (kept.1 _ run).2.2.2.2 ⟨"a//b"⟩ with ⟨lists_iff, _, listed_eq⟩
  have listed := lists_iff.mpr ⟨⟨"a/b/"⟩, List.mem_cons_self, by decide⟩
  refine ⟨missing, _, run, ?_, rfl, (kept.1 _ run).1, listed, ?_, kept.2 _⟩
  · exact Disk.contains_holding targeted
  · rw [listed_eq, listed]

end Session

end Coupling
