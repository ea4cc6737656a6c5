import PatchSearch.Proofs.Command.Places
import PatchSearch.Proofs.Files.Growth

/-!
What the preparation of a build does to the files. It writes every source where its path leads and
makes the directories on the way, and nothing else. So what a build finds besides its own sources is
what was there before, and what it writes lies in its own directory as far as the names of its
sources lead there.
-/
namespace PatchSearch

open FileTree

section Reaching

variable {t t' : FileTree} {path : String} {q : Position}

/-- A path leads to a position, or to another name of the file there. -/
def FileTree.Reaches (t : FileTree) (path : String) (q : Position) : Prop :=
  ∃ p, t.locate path = .ok p ∧ t.Shares p q

theorem FileTree.Grows.reaches (h : Grows t t') (hq : t.Reaches path q) : t'.Reaches path q := by
  obtain ⟨p, hp, hshares⟩ := hq
  refine ⟨p, h.locate hp, (h.shares_iff ?_).mpr hshares⟩
  obtain ⟨e, -, n, hthere, -⟩ := hshares
  rw [hthere]
  rfl

/-- A path that leads to something leads to it, and to its other names, no more in a grown tree than
before. -/
theorem FileTree.Grows.reaches_of (h : Grows t t') {p : Position} (hp : t.locate path = .ok p)
    (hthere : (t.stands p).isSome) (hq : t'.Reaches path q) : t.Reaches path q := by
  obtain ⟨p', hp', hshares⟩ := hq
  cases (h.locate hp).symm.trans hp'
  exact ⟨p, hp, (h.shares_iff hthere).mp hshares⟩

end Reaching

/-- The files of a host are kept in its tree, at the time of its clock. -/
theorem Host.keptIn_files : Host.storage.KeptIn Host.files :=
  ⟨fun _ h => ⟨epoch + h.now, rfl⟩, fun _ _ h => ⟨epoch + h.now, rfl⟩,
    fun _ h => ⟨epoch + h.now, rfl⟩⟩

namespace BuildCommand

variable {σ : Type} {files : Storage σ} {view : σ → FileTree} {world world' : σ}
  {directory : String} {sources : TextMap String}

/-- All sources stand where their paths lead, and of those that lead to one file the last one
counts. -/
structure Delivered (t : FileTree) (directory : String) (sources : TextMap String) : Prop where
  reached : ∀ e ∈ sources, ∃ p, t.locate (joinPath directory e.1) = .ok p ∧ (t.stands p).isSome
  last : ∀ before e after, sources = before ++ e :: after → ∀ q,
    t.Reaches (joinPath directory e.1) q →
      (∀ e' ∈ after, ¬ t.Reaches (joinPath directory e'.1) q) →
        t.entry? q = some (.file (Text.encode e.2))

/-- What no source reaches is left alone, except for directories that are made. -/
def LeavesOthers (t t' : FileTree) (directory : String) (sources : TextMap String) : Prop :=
  ∀ q, (∀ e ∈ sources, ¬ t'.Reaches (joinPath directory e.1) q) → Spared t t' q

/-- Sources that are delivered stay so while nothing but directories is made. -/
theorem Delivered.of_spared {t t' : FileTree} (h : Delivered t directory sources)
    (hgrows : Grows t t') (hspared : ∀ q, Spared t t' q) : Delivered t' directory sources := by
  refine ⟨fun e he => ?_, fun before e after hsplit q hq hlast => ?_⟩
  · obtain ⟨p, hp, hthere⟩ := h.reached e he
    obtain ⟨⟨entry, n⟩, hthere⟩ := Option.isSome_iff_exists.mp hthere
    obtain ⟨entry', hthere', -⟩ := hgrows.kept p entry n hthere
    exact ⟨p, hgrows.locate hp, by rw [hthere']; rfl⟩
  · obtain ⟨p, hp, hthere⟩ := h.reached e (by rw [hsplit]; simp)
    have hentry := h.last before e after hsplit q (hgrows.reaches_of hp hthere hq)
      fun e' he' hreaches => hlast e' he' (hgrows.reaches hreaches)
    obtain heq | ⟨hnone, -⟩ := hspared q
    · exact heq.trans hentry
    · rw [hentry] at hnone
      cases hnone

/-- Makes the directories above a path, if it names any. -/
def makeParent (files : Storage σ) (path : String) (world : σ) : Except FileError Unit × σ :=
  match parentPath path with
  | some parent => files.makeDirs parent world
  | none => (.ok (), world)

theorem makeParent_spec (h : files.KeptIn view) (hn : (view world).Numbered) {path : String}
    {answer : Except FileError Unit} (hmade : makeParent files path world = (answer, world')) :
    Grows (view world) (view world') ∧ ∀ q, Spared (view world) (view world') q := by
  unfold makeParent at hmade
  split at hmade
  · obtain ⟨hgrows, hspared, -⟩ := h.makeDirs_spec hn hmade
    exact ⟨hgrows, hspared⟩
  · cases hmade
    exact ⟨.refl hn, fun _ => Or.inl rfl⟩

theorem writeSources_cons (name content : String) :
    writeSources files directory ((name, content) :: sources) world =
      match makeParent files (joinPath directory name) world with
      | (.error e, world) => (.error e, world)
      | (.ok (), world) =>
        match files.write (joinPath directory name) (Text.encode content) world with
        | (.error e, world) => (.error e, world)
        | (.ok (), world) => writeSources files directory sources world := by
  rw [writeSources]
  unfold makeParent
  cases parentPath (joinPath directory name) with
  | none => rfl
  | some parent =>
    rcases hmade : files.makeDirs parent world with ⟨_ | _, world₁⟩
    · simp [hmade]
    · rcases hwrite : files.write (joinPath directory name) (Text.encode content) world₁ with
        ⟨_ | _, world₂⟩
      · simp [hmade, hwrite]
      · simp [hmade, hwrite]

/-- Sources are written where their paths lead, up to the first failure. -/
theorem writeSources_spec (h : files.KeptIn view) (hn : (view world).Numbered)
    {answer : Except FileError Unit}
    (hwritten : writeSources files directory sources world = (answer, world')) :
    Grows (view world) (view world') ∧
      LeavesOthers (view world) (view world') directory sources ∧
      (answer = .ok () → Delivered (view world') directory sources) := by
  induction sources generalizing world with
  | nil =>
    cases hwritten
    exact ⟨.refl hn, fun _ _ => Or.inl rfl, fun _ => ⟨nofun, by simp⟩⟩
  | cons e rest ih =>
    obtain ⟨name, content⟩ := e
    rw [writeSources_cons] at hwritten
    rcases hmade : makeParent files (joinPath directory name) world with ⟨made, world₁⟩
    rw [hmade] at hwritten
    obtain ⟨hgrows, hspared⟩ := makeParent_spec h hn hmade
    cases made with
    | error e =>
      cases hwritten
      exact ⟨hgrows, fun q _ => hspared q, nofun⟩
    | ok _ =>
      dsimp only at hwritten
      rcases hwrite : files.write (joinPath directory name) (Text.encode content) world₁
        with ⟨written, world₂⟩
      rw [hwrite] at hwritten
      obtain ⟨rfl, p, hp, hwrote⟩ | ⟨⟨cause, rfl⟩, hgrows', hsame⟩ :=
        h.write_spec hgrows.numbered hwrite
      · obtain ⟨hrest, hothers, hdelivered⟩ := ih hwrote.grows.numbered hwritten
        have hpast := hgrows.trans hwrote.grows
        refine ⟨hpast.trans hrest, fun q hq => ?_, fun hok => ⟨?_, ?_⟩⟩
        · have hapart : ¬ (view world₂).Shares p q := fun hshares =>
            hq _ List.mem_cons_self (hrest.reaches ⟨p, hp, hshares⟩)
          exact ((hspared q).trans (Or.inl (hwrote.apart q hapart))).trans
            (hothers q fun e he => hq e (List.mem_cons_of_mem _ he))
        · refine List.forall_mem_cons.mpr ⟨⟨p, hrest.locate hp, ?_⟩, (hdelivered hok).reached⟩
          obtain ⟨⟨entry, n⟩, hthere⟩ := Option.isSome_iff_exists.mp hwrote.there
          obtain ⟨entry', hthere', -⟩ := hrest.kept p entry n hthere
          rw [hthere']
          rfl
        · intro before e after hsplit q hq hlast
          cases before with
          | nil =>
            cases hsplit
            obtain ⟨p', hp', hshares⟩ := hrest.reaches_of hp hwrote.there hq
            cases hp.symm.trans hp'
            have hentry := hwrote.shared q hshares
            obtain heq | ⟨hnone, -⟩ := hothers q hlast
            · exact heq.trans hentry
            · rw [hentry] at hnone
              cases hnone
          | cons _ before =>
            cases hsplit
            exact (hdelivered hok).last before e after rfl q hq hlast
      · cases hwritten
        refine ⟨hgrows.trans hgrows', fun q _ => ?_, nofun⟩
        exact (hspared q).trans (Or.inl (hsame q))

/-- A preparation delivers the sources of a candidate below its source directory, which is there
afterwards, as is its output directory; nothing else is touched. -/
theorem prepare_spec (h : files.KeptIn view) (hn : (view world).Numbered)
    {answer : Except FileError Unit}
    (hprepared : prepare files directory sources world = (answer, world')) :
    Grows (view world) (view world') ∧
      LeavesOthers (view world) (view world') (joinPath directory "src") sources ∧
      (answer = .ok () → Delivered (view world') (joinPath directory "src") sources ∧
        ∃ s, (view world').locate (joinPath directory "src") = .ok s ∧
          FileTree.entry? (view world') s = some .directory) := by
  have hne (name : String) (hname : name ≠ "") : joinPath directory name ≠ "" := by
    unfold joinPath
    split
    · exact hname
    · split <;> simp [hname]
  unfold prepare at hprepared
  rcases hwritten : writeSources files (joinPath directory "src") sources world
    with ⟨written, world₁⟩
  rw [hwritten] at hprepared
  obtain ⟨hgrows, hothers, hdelivered⟩ := writeSources_spec h hn hwritten
  cases written with
  | error e =>
    cases hprepared
    exact ⟨hgrows, hothers, nofun⟩
  | ok _ =>
    dsimp only at hprepared
    rcases hsrc : files.makeDirs (joinPath directory "src") world₁ with ⟨made, world₂⟩
    rw [hsrc] at hprepared
    obtain ⟨hgrows₁, hspared₁, hthere⟩ := h.makeDirs_spec hgrows.numbered hsrc
    -- making directories keeps what was said of the sources
    have hlater {t : FileTree} (hg : Grows (view world₁) t) (hs : ∀ q, Spared (view world₁) t q) :
        Grows (view world) t ∧
          LeavesOthers (view world) t (joinPath directory "src") sources ∧
          Delivered t (joinPath directory "src") sources := by
      refine ⟨hgrows.trans hg, fun q hq => ?_, (hdelivered rfl).of_spared hg hs⟩
      exact (hothers q fun e he hreaches => hq e he (hg.reaches hreaches)).trans (hs q)
    cases made with
    | error e =>
      cases hprepared
      obtain ⟨hg, ho, -⟩ := hlater hgrows₁ hspared₁
      exact ⟨hg, ho, nofun⟩
    | ok _ =>
      dsimp only at hprepared
      obtain ⟨hgrows₂, hspared₂, -⟩ := h.makeDirs_spec hgrows₁.numbered hprepared
      obtain ⟨hg, ho, hd⟩ := hlater (hgrows₁.trans hgrows₂)
        fun q => (hspared₁ q).trans (hspared₂ q)
      refine ⟨hg, ho, fun _ => ⟨hd, ?_⟩⟩
      obtain ⟨s, hs, hdir⟩ := hthere rfl (hne "src" (by decide))
      refine ⟨s, hgrows₂.locate hs, ?_⟩
      have hcases := hgrows₂.entry?_cases s
      rwa [hdir] at hcases

section Exactness

/-- Of some members with a property there is a last one. -/
theorem exists_last {β : Type} {P : β → Prop} {xs : List β} (h : ∃ x ∈ xs, P x) :
    ∃ before x after, xs = before ++ x :: after ∧ P x ∧ ∀ y ∈ after, ¬ P y := by
  induction xs with
  | nil =>
    obtain ⟨x, hx, -⟩ := h
    cases hx
  | cons x xs ih =>
    by_cases hlater : ∃ y ∈ xs, P y
    · obtain ⟨before, y, after, rfl, hy, hlast⟩ := ih hlater
      exact ⟨x :: before, y, after, rfl, hy, hlast⟩
    · obtain ⟨y, hy, hP⟩ := h
      have hnone : ∀ y ∈ xs, ¬ P y := fun y hy hP => hlater ⟨y, hy, hP⟩
      rcases List.mem_cons.mp hy with rfl | hy
      · exact ⟨[], y, xs, rfl, hP, hnone⟩
      · exact absurd hP (hnone y hy)

/-- The last of the sources whose path leads to the file at a position. -/
def LastAt (t : FileTree) (directory : String) (sources : TextMap String) (q : Position)
    (e : String × String) : Prop :=
  ∃ before after, sources = before ++ e :: after ∧ t.Reaches (joinPath directory e.1) q ∧
    ∀ e' ∈ after, ¬ t.Reaches (joinPath directory e'.1) q

/-- No two of the sources lead to one file. -/
def Apart (t : FileTree) (directory : String) (sources : TextMap String) : Prop :=
  sources.Pairwise fun e e' =>
    ∀ q, t.Reaches (joinPath directory e.1) q → ¬ t.Reaches (joinPath directory e'.1) q

theorem Apart.lastAt {t : FileTree} (h : Apart t directory sources) {q : Position}
    {e : String × String} (he : e ∈ sources) (hq : t.Reaches (joinPath directory e.1) q) :
    LastAt t directory sources q e := by
  obtain ⟨before, after, rfl⟩ := List.append_of_mem he
  obtain ⟨-, hafter, -⟩ := List.pairwise_append.mp h
  exact ⟨before, after, rfl, hq, fun e' he' => (List.pairwise_cons.mp hafter).1 e' he' q hq⟩

/-- Who looks below a position sees the given sources there and no other file. -/
structure ShowsExactly (t : FileTree) (directory : String) (s : Position)
    (sources : TextMap String) : Prop where
  shown : ∀ e ∈ sources, ∃ q, s <+: q ∧ t.locate (joinPath directory e.1) = .ok q ∧
    t.entry? q = some (.file (Text.encode e.2))
  only : ∀ q content, s <+: q → t.entry? q = some (.file content) →
    ∃ e ∈ sources, t.locate (joinPath directory e.1) = .ok q ∧ content = Text.encode e.2

variable {t t' : FileTree}

/-- The files afterwards are the sources, of those that lead to one file the last, and what stood
before where no source leads. -/
theorem file_iff (hd : Delivered t' directory sources) (hl : LeavesOthers t t' directory sources)
    (q : Position) (content : ByteArray) :
    t'.entry? q = some (.file content) ↔
      (∃ e, LastAt t' directory sources q e ∧ content = Text.encode e.2) ∨
        (∀ e ∈ sources, ¬ t'.Reaches (joinPath directory e.1) q) ∧
          t.entry? q = some (.file content) := by
  by_cases hreached : ∃ e ∈ sources, t'.Reaches (joinPath directory e.1) q
  · obtain ⟨before, e, after, hsplit, he, hlast⟩ := exists_last hreached
    have hentry := hd.last before e after hsplit q he hlast
    constructor
    · intro h
      rw [hentry] at h
      cases h
      exact Or.inl ⟨e, ⟨before, after, hsplit, he, hlast⟩, rfl⟩
    · rintro (⟨e', ⟨before', after', hsplit', he', hlast'⟩, rfl⟩ | ⟨hnone, -⟩)
      · exact hd.last before' e' after' hsplit' q he' hlast'
      · obtain ⟨e', he', hq⟩ := hreached
        exact absurd hq (hnone e' he')
  · have hnone : ∀ e ∈ sources, ¬ t'.Reaches (joinPath directory e.1) q :=
      fun e he hq => hreached ⟨e, he, hq⟩
    have hspared := hl q hnone
    constructor
    · intro h
      refine Or.inr ⟨hnone, ?_⟩
      obtain heq | ⟨-, hdir⟩ := hspared
      · exact heq.symm.trans h
      · rw [hdir] at h
        cases h
    · rintro (⟨e, ⟨before, after, hsplit, he, -⟩, -⟩ | ⟨-, h⟩)
      · exact absurd he (hnone e (by rw [hsplit]; simp))
      · obtain heq | ⟨hnot, -⟩ := hspared
        · exact heq.trans h
        · rw [hnot] at h
          cases h

/-- Only files that stood there before and that no source leads to can be seen besides. -/
theorem showsExactly_iff_of_apart (hg : Grows t t') (hd : Delivered t' directory sources)
    (hl : LeavesOthers t t' directory sources) (ha : Apart t' directory sources) (s : Position) :
    ShowsExactly t' directory s sources ↔
      (∀ e ∈ sources, ∃ q, s <+: q ∧ t'.locate (joinPath directory e.1) = .ok q) ∧
        ∀ q content, s <+: q → t.entry? q = some (.file content) →
          ∃ e ∈ sources, t'.locate (joinPath directory e.1) = .ok q := by
  have hlocated {e : String × String} (he : e ∈ sources) {q : Position}
      (hq : t'.locate (joinPath directory e.1) = .ok q) :
      t'.entry? q = some (.file (Text.encode e.2)) := by
    obtain ⟨p, hp, hthere⟩ := hd.reached e he
    cases hp.symm.trans hq
    obtain ⟨x, hx⟩ := Option.isSome_iff_exists.mp hthere
    exact (file_iff hd hl q _).mpr
      (Or.inl ⟨e, ha.lastAt he ⟨q, hq, FileTree.shares_self hx⟩, rfl⟩)
  constructor
  · intro h
    refine ⟨fun e he => ?_, fun q content hq hfile => ?_⟩
    · obtain ⟨q, hq, hlead, -⟩ := h.shown e he
      exact ⟨q, hq, hlead⟩
    · have hcases := hg.entry?_cases q
      rw [hfile] at hcases
      obtain ⟨content', hfile'⟩ := hcases
      obtain ⟨e, he, hlead, -⟩ := h.only q content' hq hfile'
      exact ⟨e, he, hlead⟩
  · rintro ⟨hbelow, hnone⟩
    refine ⟨fun e he => ?_, fun q content hq hfile => ?_⟩
    · obtain ⟨q, hq, hlead⟩ := hbelow e he
      exact ⟨q, hq, hlead, hlocated he hlead⟩
    · have hlead : ∃ e ∈ sources, t'.locate (joinPath directory e.1) = .ok q := by
        rcases hold : t.stands q with _ | ⟨x, n⟩
        · -- a new file has its number to itself, so the path that leads to it leads here
          obtain ⟨e, ⟨before, after, hsplit, ⟨p, hp, d, d', m, hshare, hq'⟩, -⟩, -⟩ | ⟨-, hwas⟩ :=
            (file_iff hd hl q content).mp hfile
          · cases (hg.made q _ _ hold hq').2.2 p d hshare
            exact ⟨e, by rw [hsplit]; simp, hp⟩
          · rw [entry?_eq_stands, hold] at hwas
            cases hwas
        · have hcases := hg.entry?_cases q
          have hentry : t.entry? q = some x := entry?_eq_some_iff.mpr ⟨n, hold⟩
          cases x with
          | file content' => exact hnone q content' hq hentry
          | directory =>
            rw [hentry] at hcases
            rw [hcases] at hfile
            cases hfile
          | link target =>
            rw [hentry] at hcases
            rw [hcases] at hfile
            cases hfile
      obtain ⟨e, he, hlead⟩ := hlead
      refine ⟨e, he, hlead, ?_⟩
      rw [hlocated he hlead] at hfile
      cases hfile
      rfl

/-- A build sees its candidate exactly if nothing was left behind. After a preparation that
succeeds, in any state and for any sources, a file is what the last source that leads to it says, or
it is left from before and no source leads to it. So where no two sources lead to one file, the
files below the source directory are exactly the sources if and only if these all lead there and
every file that stood there before is one that a source leads to. -/
theorem showsExactly_iff (h : files.KeptIn view) (hn : (view world).Numbered) {c : BuildCommand}
    {id : ℕ} (hprepared : prepare files (c.directory id) sources world = (.ok (), world')) :
    ∃ s, (view world').locate (c.sourceDir id) = .ok s ∧
      FileTree.entry? (view world') s = some .directory ∧
      (∀ q content, FileTree.entry? (view world') q = some (.file content) ↔
        (∃ e, LastAt (view world') (c.sourceDir id) sources q e ∧ content = Text.encode e.2) ∨
          (∀ e ∈ sources, ¬ (view world').Reaches (joinPath (c.sourceDir id) e.1) q) ∧
            FileTree.entry? (view world) q = some (.file content)) ∧
      (Apart (view world') (c.sourceDir id) sources →
        (ShowsExactly (view world') (c.sourceDir id) s sources ↔
          (∀ e ∈ sources, ∃ q, s <+: q ∧
            (view world').locate (joinPath (c.sourceDir id) e.1) = .ok q) ∧
          ∀ q content, s <+: q → FileTree.entry? (view world) q = some (.file content) →
            ∃ e ∈ sources, (view world').locate (joinPath (c.sourceDir id) e.1) = .ok q)) := by
  obtain ⟨hg, hl, hok⟩ := prepare_spec h hn hprepared
  obtain ⟨hd, s, hs, hdir⟩ := hok rfl
  exact ⟨s, hs, hdir, file_iff hd hl, fun ha => showsExactly_iff_of_apart hg hd hl ha s⟩

/-- A build that puts everything below one work directory. -/
def workBuild : BuildCommand where
  program := "true"
  args := []
  workDir := "work"
  limit := ⟨0⟩

/-- On an empty host a build sees its candidate exactly. -/
theorem showsExactly_iff_of_empty :
    Host.storage.KeptIn Host.files ∧ FileTree.empty.Numbered ∧
      ∃ host, prepare Host.storage (workBuild.directory 0) [("A.java", "x++;")] ⟨.empty, 0, ""⟩ =
          (.ok (), host) ∧
        ∃ s, ShowsExactly host.files (workBuild.sourceDir 0) s [("A.java", "x++;")] := by
  have hn : FileTree.empty.Numbered := numbered_of_nodup (by decide) nofun List.nodup_nil
  have hrun : (match prepare Host.storage (workBuild.directory 0) [("A.java", "x++;")]
        ⟨.empty, 0, ""⟩ with
      | (answer, host) => (answer, host.files.locate (workBuild.sourceDir 0),
          host.files.locate (joinPath (workBuild.sourceDir 0) "A.java"))) =
      (.ok (), .ok ["work", "bin_0", "src"], .ok ["work", "bin_0", "src", "A.java"]) := by
    decide +kernel
  rcases hprepared : prepare Host.storage (workBuild.directory 0) [("A.java", "x++;")]
    ⟨.empty, 0, ""⟩ with ⟨answer, host⟩
  rw [hprepared] at hrun
  simp only [Prod.mk.injEq] at hrun
  obtain ⟨hok, hsource, hfile⟩ := hrun
  cases hok
  obtain ⟨s, hs, -, -, hexact⟩ := showsExactly_iff Host.keptIn_files hn hprepared
  cases hsource.symm.trans hs
  refine ⟨Host.keptIn_files, hn, host, rfl, _,
    (hexact (List.pairwise_singleton _ _)).mpr ⟨?_, ?_⟩⟩
  · refine List.forall_mem_singleton.mpr ⟨_, ?_, hfile⟩
    exact ⟨["A.java"], rfl⟩
  · intro q content _ hold
    by_cases hq : q = []
    · rw [hq] at hold
      cases hold
    · obtain ⟨n, hold⟩ := entry?_eq_some_iff.mp hold
      obtain ⟨x, hx, -⟩ := mem_items_of_stands hold hq
      cases hx

/-- A tree in which an earlier run left an edited file. -/
def staleTree : FileTree where
  items := [(["work"], ⟨.directory, 1, 493, 0⟩), (["work", "bin_0"], ⟨.directory, 2, 493, 0⟩),
    (["work", "bin_0", "src"], ⟨.directory, 3, 493, 0⟩),
    (["work", "bin_0", "src", "B.java"], ⟨.file (Text.encode "y--;"), 4, 420, 0⟩)]
  here := []
  nextNumber := 5

/-- A build sees the edited file of an earlier run beside its own. -/
theorem stale_file_shown :
    ∃ t', prepare FileTree.storage (workBuild.directory 0) [("A.java", "x++;")] staleTree =
        (.ok (), t') ∧
      t'.locate (workBuild.sourceDir 0) = .ok ["work", "bin_0", "src"] ∧
      t'.read "work/bin_0/src/B.java" = .ok (Text.encode "y--;") ∧
      ¬ ShowsExactly t' (workBuild.sourceDir 0) ["work", "bin_0", "src"]
        [("A.java", "x++;")] := by
  have hrun : (match prepare FileTree.storage (workBuild.directory 0) [("A.java", "x++;")]
        staleTree with
      | (answer, t') => (answer, t'.locate (workBuild.sourceDir 0),
          t'.locate (joinPath (workBuild.sourceDir 0) "A.java"),
          t'.locate "work/bin_0/src/B.java", t'.read "work/bin_0/src/B.java")) =
      (.ok (), .ok ["work", "bin_0", "src"], .ok ["work", "bin_0", "src", "A.java"],
        .ok ["work", "bin_0", "src", "B.java"], .ok (Text.encode "y--;")) := by
    decide +kernel
  rcases hprepared : prepare FileTree.storage (workBuild.directory 0) [("A.java", "x++;")]
    staleTree with ⟨answer, t'⟩
  rw [hprepared] at hrun
  simp only [Prod.mk.injEq] at hrun
  obtain ⟨hok, hsource, hfile, hstale, hread⟩ := hrun
  cases hok
  refine ⟨t', rfl, hsource, hread, fun hexact => ?_⟩
  obtain ⟨p, hp, hentry⟩ := read_eq_ok hread
  cases hstale.symm.trans hp
  obtain ⟨e, he, hlead, -⟩ := hexact.only _ _ ⟨["B.java"], rfl⟩ hentry
  rw [List.mem_singleton.mp he] at hlead
  exact absurd (Except.ok.inj (hfile.symm.trans hlead)) (by decide)

end Exactness

section Confinement

/-- A name leads neither to the root nor further up than from the sources of a candidate to its
directory. -/
structure Confined (name : String) : Prop where
  relative : isAbsolutePath name = false
  low : (Route.ofPath name).up ≤ 1

/-- Where a source of a candidate is written. -/
def sourcePath (c : BuildCommand) (id : ℕ) (name : String) : String :=
  joinPath (c.sourceDir id) name

/-- A way that goes up at most once stays below where it would have to go up twice to leave. -/
theorem prefix_leads {r : Route} (h : r.up ≤ 1) (d : Position) (name : String) :
    d <+: r.leads (d ++ [name]) := by
  have hkept : d <+: (d ++ [name]).take ((d ++ [name]).length - r.up) := by
    rw [List.prefix_take_iff]
    refine ⟨List.prefix_append d [name], ?_⟩
    rw [List.length_append, List.length_singleton]
    omega
  exact hkept.trans (List.prefix_append _ r.down)

theorem spot_sourcePath (here : Position) (c : BuildCommand) (id : ℕ) (name : String) :
    spot here (c.sourcePath id name) =
      spot (spot here c.workDir ++ [binName id] ++ ["src"]) name := by
  unfold sourcePath sourceDir
  rw [spot_joinPath, spot_joinPath, isName_src.spot, spot_directory]

/-- A confined name stays in the directory of its candidate. -/
theorem Confined.spot {name : String} (h : Confined name) (here : Position) (c : BuildCommand)
    (id : ℕ) :
    FileTree.spot here (c.directory id) <+: FileTree.spot here (c.sourcePath id name) := by
  rw [spot_sourcePath, spot_directory, ← Route.leads_ofPath h.relative]
  exact prefix_leads h.low _ "src"

/-- Any other name leads to the same place from every candidate. -/
theorem spot_of_not_confined {name : String} (h : ¬ Confined name) (here : Position)
    (c : BuildCommand) (id id' : ℕ) :
    spot here (c.sourcePath id name) = spot here (c.sourcePath id' name) := by
  rw [spot_sourcePath, spot_sourcePath]
  cases hname : isAbsolutePath name with
  | true =>
    unfold spot startFrom
    rw [hname]
    rfl
  | false =>
    have hhigh : 2 ≤ (Route.ofPath name).up := Nat.lt_of_not_le fun hlow => h ⟨hname, hlow⟩
    have hcut (bin : String) : (Route.ofPath name).leads (spot here c.workDir ++ [bin] ++ ["src"]) =
        (spot here c.workDir).take ((spot here c.workDir).length + 2 - (Route.ofPath name).up) ++
          (Route.ofPath name).down := by
      unfold Route.leads
      rw [List.append_assoc, List.length_append, List.take_append_of_le_length (by simp; omega)]
      rfl
    rw [← Route.leads_ofPath hname, ← Route.leads_ofPath hname, hcut, hcut]

/-- Two candidates have no place in common. -/
theorem eq_of_spot_directory {here : Position} {c : BuildCommand} {id id' : ℕ} {q : Position}
    (h : spot here (c.directory id) <+: q) (h' : spot here (c.directory id') <+: q) : id = id' := by
  rw [spot_directory] at h h'
  have hsame := List.prefix_of_prefix_length_le h h' (by simp)
  have hbin := hsame.eq_of_length (by simp)
  exact binName_injective (List.singleton_injective (List.append_cancel_left hbin))

/-- A name is confined exactly if no candidate has it written outside its own directory. -/
theorem confined_iff {name : String} (here : Position) (c : BuildCommand) :
    Confined name ↔ ∀ id, spot here (c.directory id) <+: spot here (c.sourcePath id name) := by
  refine ⟨fun h => h.spot here c, fun hall => ?_⟩
  by_contra hnot
  have hother := hall 1
  rw [spot_of_not_confined hnot here c 1 0] at hother
  cases eq_of_spot_directory (hall 0) hother

/-- No link stands at a position or below it. -/
def Unlinked (t : FileTree) (d : Position) : Prop :=
  ∀ p, d <+: p → ∀ target, t.entry? p ≠ some (.link target)

/-- Where a confined name leads somewhere, it leads below the directory of its candidate, as far as
no links stand there. -/
theorem Confined.locate {t : FileTree} {c : BuildCommand} {id : ℕ} {name : String} {p : Position}
    (h : Confined name) (hp : t.locate (c.sourcePath id name) = .ok p) :
    ∃ d, t.locate (c.directory id) = .ok d ∧ (Unlinked t d → d <+: p) := by
  have hsrc : pathSteps "src" = ["src"] :=
    pathSteps_of_not_mem isName_src.separator isName_src.some
  have hsteps : pathSteps (c.sourcePath id name) =
      pathSteps (c.directory id) ++ ("src" :: pathSteps name) := by
    unfold sourcePath sourceDir
    rw [pathSteps_joinPath _ h.relative, pathSteps_joinPath _ isName_src.relative, hsrc,
      List.append_assoc]
    rfl
  have htext : ∃ rest, c.sourcePath id name = c.directory id ++ rest := by
    obtain ⟨rest, hrest⟩ := joinPath_eq_append (c.directory id) isName_src.relative
    obtain ⟨rest', hrest'⟩ := joinPath_eq_append (c.sourceDir id) h.relative
    refine ⟨rest ++ rest', ?_⟩
    unfold sourcePath
    rw [hrest', sourceDir, hrest, String.append_assoc]
  have hbase : c.directory id ≠ "" := by
    intro hempty
    have hroute := ofPath_directory c id
    rw [hempty] at hroute
    simp [Route.ofPath, Route.ofSteps, pathSteps, slashParts] at hroute
  obtain ⟨d, hd, through, m, hp⟩ :=
    locate_of_append hbase htext hsteps (List.cons_ne_nil _ _) hp
  refine ⟨d, hd, fun hlinks => ?_⟩
  have hin (s : List String) (hs : s <+: "src" :: pathSteps name) (hne : s ≠ []) :
      d <+: walk d s := by
    cases s with
    | nil => exact absurd rfl hne
    | cons a rest =>
      obtain ⟨rfl, more, hmore⟩ := List.cons_prefix_cons.mp hs
      have hlow : (Route.ofSteps rest).up ≤ 1 := by
        refine (Route.up_ofSteps_append rest more).trans ?_
        rw [hmore]
        exact h.low
      have hwalk : walk d ("src" :: rest) = (Route.ofSteps rest).leads (d ++ ["src"]) :=
        (Route.leads_ofSteps rest _).symm
      rw [hwalk]
      exact prefix_leads hlow d "src"
  rw [followLinks_eq_walk hlinks hin hp]
  exact hin _ (List.prefix_refl _) (List.cons_ne_nil _ _)

/-- A position is neither below a directory nor another name of a file below it. -/
def Outside (t : FileTree) (d q : Position) : Prop :=
  ∀ p, d <+: p → p ≠ q ∧ ¬ t.Shares p q

/-- Sources of confined names change nothing outside the directory of their candidate. -/
theorem spared_of_confined {t t' : FileTree} {c : BuildCommand} {id : ℕ} (hg : Grows t t')
    (hl : LeavesOthers t t' (c.sourceDir id) sources) (hnames : ∀ e ∈ sources, Confined e.1)
    {q : Position}
    (hout : ∀ d, t'.locate (c.directory id) = .ok d → Unlinked t d ∧ Outside t d q) :
    Spared t t' q := by
  refine hl q fun e he hreaches => ?_
  obtain ⟨p, hp, hshares⟩ := hreaches
  obtain ⟨d, hd, hbelow⟩ := (hnames e he).locate hp
  obtain ⟨hlinks, houtside⟩ := hout d hd
  obtain ⟨hne, hapart⟩ := houtside p (hbelow fun p hp target hlink =>
    hlinks p hp target (hg.entry?_link hlink))
  rcases hold : t.stands p with _ | x
  · -- a new file has no other name
    obtain ⟨e, e', n, hthere, hq⟩ := hshares
    exact hne ((hg.made p e n hold hthere).2.2 q e' hq).symm
  · exact hapart ((hg.shares_iff (by rw [hold]; rfl)).mp hshares)

/-- Sources that can be read can be read again where every file is as it was. -/
theorem loadInto_of_readText {root : String} {loaded tree : TextMap String} {names : List String}
    (hsame : ∀ name ∈ names, ∀ text, files.readText (joinPath root name) world = .ok text →
      files.readText (joinPath root name) world' = .ok text)
    (h : SourceTree.loadInto files root world loaded names = .ok tree) :
    SourceTree.loadInto files root world' loaded names = .ok tree := by
  induction names generalizing loaded with
  | nil => exact h
  | cons name names ih =>
    have hrest := fun file hfile => hsame file (List.mem_cons_of_mem name hfile)
    unfold SourceTree.loadInto at h ⊢
    split at h
    · next hknown =>
      rw [if_pos hknown]
      exact ih hrest h
    · next hnew =>
      obtain ⟨text, htext, h⟩ := bind_eq_ok_iff.mp h
      rw [if_neg hnew]
      exact bind_eq_ok_iff.mpr ⟨text, hsame name List.mem_cons_self text htext, ih hrest h⟩

/-- Candidates are kept apart exactly by names that are confined. Such a name has its source written
below the directory of the candidate, and two candidates never write to one place; any other name
has all candidates write to the same place, so it leads out of the directory of all but at most one
of them. Where all names are confined and no links stand below the directory of a candidate, its
preparation changes no file outside, however it ends, and the original sources are read again as
they were unless they lie in that directory themselves. -/
theorem writes_confined (h : files.KeptIn view) (hn : (view world).Numbered) {c : BuildCommand}
    {id : ℕ} {answer : Except FileError Unit}
    (hprepared : prepare files (c.directory id) sources world = (answer, world')) :
    (∀ name here, (Confined name ↔
        ∀ id, spot here (c.directory id) <+: spot here (c.sourcePath id name)) ∧
      (∀ name' id id', Confined name → Confined name' → id ≠ id' →
        spot here (c.sourcePath id name) ≠ spot here (c.sourcePath id' name')) ∧
      (¬ Confined name → ∀ id id',
        spot here (c.sourcePath id name) = spot here (c.sourcePath id' name))) ∧
    ((∀ e ∈ sources, Confined e.1) →
      (∀ q, (∀ d, (view world').locate (c.directory id) = .ok d →
          Unlinked (view world) d ∧ Outside (view world) d q) →
        Spared (view world) (view world') q) ∧
      ∀ root names tree, SourceTree.load files root names world = .ok tree →
        (∀ d, (view world').locate (c.directory id) = .ok d → Unlinked (view world) d ∧
          ∀ name ∈ names, ∀ q, (view world).locate (joinPath root name) = .ok q →
            Outside (view world) d q) →
        SourceTree.load files root names world' = .ok tree) := by
  obtain ⟨hg, hl, -⟩ := prepare_spec h hn hprepared
  refine ⟨fun name here => ⟨confined_iff here c, fun name' id id' hname hname' hne heq => ?_,
    fun hname id id' => spot_of_not_confined hname here c id id'⟩,
    fun hnames => ⟨fun q => spared_of_confined hg hl hnames, fun root names tree hload hout => ?_⟩⟩
  · have hother := hname'.spot here c id'
    rw [← heq] at hother
    exact hne (eq_of_spot_directory (hname.spot here c id) hother)
  · obtain ⟨texts, htexts, hload⟩ := bind_eq_ok_iff.mp hload
    refine bind_eq_ok_iff.mpr ⟨texts, loadInto_of_readText (fun name hname text htext => ?_) htexts,
      hload⟩
    obtain ⟨bytes, hbytes, htext⟩ := bind_eq_ok_iff.mp htext
    refine bind_eq_ok_iff.mpr ⟨bytes, h.read_of_grows hn hg hbytes fun p hp hfile => ?_, htext⟩
    obtain heq | ⟨hnone, -⟩ := spared_of_confined hg hl hnames fun d hd =>
      ⟨(hout d hd).1, (hout d hd).2 name hname p hp⟩
    · exact heq
    · rw [hfile] at hnone
      cases hnone

theorem confined_of_isName {name : String} (h : IsName name) : Confined name := by
  refine ⟨h.relative, ?_⟩
  have hroute := Route.ofSteps_append_name [] h.dot h.dots
  unfold Route.ofPath
  rw [pathSteps_of_not_mem h.separator h.some, ← List.nil_append [name], hroute]
  exact Nat.zero_le 1

/-- A tree with an original source. -/
def originalTree : FileTree where
  items := [(["s"], ⟨.directory, 1, 493, 0⟩),
    (["s", "A.java"], ⟨.file (Text.encode "x++;"), 2, 420, 0⟩)]
  here := []
  nextNumber := 3

/-- The original is read again after the edited file was written for a candidate. -/
theorem writes_confined_of_original :
    Host.storage.KeptIn Host.files ∧ originalTree.Numbered ∧ ∃ host tree,
      prepare Host.storage (workBuild.directory 0) [("A.java", "x--;")] ⟨originalTree, 0, ""⟩ =
        (.ok (), host) ∧
      SourceTree.load Host.storage "s" ["A.java"] ⟨originalTree, 0, ""⟩ = .ok tree ∧
      SourceTree.load Host.storage "s" ["A.java"] host = .ok tree := by
  have hn : originalTree.Numbered := numbered_of_nodup (by decide) (by decide) (by decide)
  have hrun : (match prepare Host.storage (workBuild.directory 0) [("A.java", "x--;")]
        ⟨originalTree, 0, ""⟩ with
      | (answer, host) => (answer, host.files.locate (workBuild.directory 0))) =
      (.ok (), .ok ["work", "bin_0"]) := by
    decide +kernel
  have hfile : originalTree.locate (joinPath "s" "A.java") = .ok ["s", "A.java"] := by
    decide +kernel
  have hloaded : (SourceTree.load Host.storage "s" ["A.java"]
      ⟨originalTree, 0, ""⟩).toOption.isSome = true := by
    decide +kernel
  -- nothing stands in the directory of the candidate yet
  have hnone (p : Position) (hp : ["work", "bin_0"] <+: p) : originalTree.stands p = none := by
    rcases hstands : originalTree.stands p with _ | ⟨e, n⟩
    · rfl
    · obtain ⟨rest, rfl⟩ := hp
      obtain ⟨x, hx, -⟩ := mem_items_of_stands hstands (by simp)
      simp [originalTree] at hx
  rcases hprepared : prepare Host.storage (workBuild.directory 0) [("A.java", "x--;")]
    ⟨originalTree, 0, ""⟩ with ⟨answer, host⟩
  rw [hprepared] at hrun
  simp only [Prod.mk.injEq] at hrun
  obtain ⟨hok, hdir⟩ := hrun
  cases hok
  rcases hload : SourceTree.load Host.storage "s" ["A.java"] ⟨originalTree, 0, ""⟩ with e | tree
  · rw [hload] at hloaded
    cases hloaded
  have hname : IsName "A.java" := ⟨by decide, by decide, by decide, by decide⟩
  have hagain := ((writes_confined Host.keptIn_files hn hprepared).2
    (List.forall_mem_singleton.mpr (confined_of_isName hname))).2 "s" ["A.java"] tree hload
  refine ⟨Host.keptIn_files, hn, host, tree, rfl, rfl, hagain fun d hd => ?_⟩
  obtain rfl := Except.ok.inj (hdir.symm.trans hd)
  refine ⟨fun p hp target hlink => ?_, List.forall_mem_singleton.mpr fun q hq p hp => ?_⟩
  · cases (entry?_eq_none_iff.mpr (hnone p hp)).symm.trans hlink
  · obtain rfl := Except.ok.inj (hfile.symm.trans hq)
    refine ⟨?_, ?_⟩
    · rintro rfl
      exact absurd hp (by decide)
    · rintro ⟨e, e', n, hstands, -⟩
      cases (hnone p hp).symm.trans hstands

/-- A tree with an original source far above the root of the sources. -/
def climbingTree : FileTree where
  items := [(["A.java"], ⟨.file (Text.encode "x++;"), 1, 420, 0⟩),
    (["a"], ⟨.directory, 2, 493, 0⟩), (["a", "b"], ⟨.directory, 3, 493, 0⟩),
    (["a", "b", "c"], ⟨.directory, 4, 493, 0⟩)]
  here := []
  nextNumber := 5

/-- The original source is read below the root of the sources by a name that climbs out of it, and
the edited file is written over it by the same name. -/
theorem original_overwritten :
    ∃ tree t', SourceTree.load FileTree.storage "a/b/c" ["../../../A.java"] climbingTree =
        .ok tree ∧
      tree.file? "../../../A.java" = some "x++;" ∧
      prepare FileTree.storage (workBuild.directory 0) [("../../../A.java", "y++;")]
        climbingTree = (.ok (), t') ∧
      t'.locate (workBuild.directory 0) = .ok ["work", "bin_0"] ∧
      t'.locate (workBuild.sourcePath 0 "../../../A.java") = .ok ["A.java"] ∧
      climbingTree.read "A.java" = .ok (Text.encode "x++;") ∧
      t'.read "A.java" = .ok (Text.encode "y++;") := by
  have hloaded : (SourceTree.load FileTree.storage "a/b/c" ["../../../A.java"]
      climbingTree).map (·.file? "../../../A.java") = .ok (some "x++;") := by
    decide +kernel
  have hrun : (match prepare FileTree.storage (workBuild.directory 0)
        [("../../../A.java", "y++;")] climbingTree with
      | (answer, t') => (answer, t'.locate (workBuild.directory 0),
          t'.locate (workBuild.sourcePath 0 "../../../A.java"), t'.read "A.java")) =
      (.ok (), .ok ["work", "bin_0"], .ok ["A.java"], .ok (Text.encode "y++;")) := by
    decide +kernel
  have hbefore : climbingTree.read "A.java" = .ok (Text.encode "x++;") := by
    decide +kernel
  rcases hload : SourceTree.load FileTree.storage "a/b/c" ["../../../A.java"] climbingTree
    with e | tree
  · rw [hload] at hloaded
    cases hloaded
  rw [hload] at hloaded
  rcases hprepared : prepare FileTree.storage (workBuild.directory 0)
    [("../../../A.java", "y++;")] climbingTree with ⟨answer, t'⟩
  rw [hprepared] at hrun
  simp only [Prod.mk.injEq] at hrun
  obtain ⟨hok, hdir, hsource, hafter⟩ := hrun
  cases hok
  exact ⟨tree, t', rfl, Except.ok.inj hloaded, rfl, hdir, hsource, hbefore, hafter⟩

end Confinement

end BuildCommand

end PatchSearch
