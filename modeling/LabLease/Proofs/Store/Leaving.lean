import LabLease.Store.Opening

/-!
# Opening what was left

A database that was opened and can be written to is left such that it can be opened again, and what
is found then is the table that was left (`Session.Writable.openFiles_leave`).

`Opening.Gives` says that a step in opening a database succeeds. All the while the lock is free, and
the log is in use if there is one (`Session.InUse`). In the end the database has a log just where
one can be shared (`Session.Writable`). What is left then is in order (`Location.InOrder`), and what
is in order can be opened (`Location.InOrder.openStore`).
-/

namespace LabLease

namespace Opening

variable {α β : Type} {x y : Opening α} {s s' : Session} {a : α} {b : β} {u : Unit}

/-- A step succeeds: it gives `a` and leads from one session to another. -/
def Gives (x : Opening α) (s : Session) (a : α) (s' : Session) : Prop := x.run s = .ok a s'

theorem gives_bind {f : α → Opening β} :
    Gives (x >>= f) s b s' ↔ ∃ a s₁, Gives x s a s₁ ∧ Gives (f a) s₁ b s' := by
  unfold Gives
  rw [EStateM.run_bind]
  cases x.run s with
  | error => simp
  | ok a s₁ =>
    constructor
    · exact fun h => ⟨a, s₁, rfl, h⟩
    · rintro ⟨_, _, ⟨⟩, h⟩
      exact h

theorem Gives.bind {s₁ : Session} {f : α → Opening β} (h : Gives x s a s₁)
    (h' : Gives (f a) s₁ b s') : Gives (x >>= f) s b s' :=
  gives_bind.2 ⟨a, s₁, h, h'⟩

@[simp] theorem gives_pure {a' : α} : Gives (pure a') s a s' ↔ a = a' ∧ s' = s := by
  simp [Gives, eq_comm]

@[simp] theorem gives_ofExcept {e : Except BackendFault α} :
    Gives (MonadExcept.ofExcept e) s a s' ↔ e = .ok a ∧ s' = s := by
  cases e with
  | error fault =>
    have : (throw fault : Opening α).run s = .error fault s := rfl
    simp [Gives, MonadExcept.ofExcept, this]
  | ok => simp [MonadExcept.ofExcept, eq_comm]

@[simp] theorem gives_ite {c : Prop} [Decidable c] :
    Gives (if c then x else y) s a s' ↔ if c then Gives x s a s' else Gives y s a s' := by
  split <;> rfl

@[simp] theorem gives_files_bind {f : DatabaseFiles → Opening β} :
    Gives (files >>= f) s b s' ↔ Gives (f s.files) s b s' := .rfl

@[simp] theorem gives_get_bind {f : Session → Opening β} :
    Gives (get >>= f) s b s' ↔ Gives (f s) s b s' := .rfl

@[simp] theorem gives_modify_bind {g : Session → Session} {f : Unit → Opening β} :
    Gives (modify g >>= f) s b s' ↔ Gives (f ()) (g s) b s' := .rfl

@[simp] theorem gives_change_bind {g : DatabaseFiles → DatabaseFiles} {f : Unit → Opening β} :
    Gives (change g >>= f) s b s' ↔ Gives (f ()) { s with files := g s.files } b s' := .rfl

@[simp] theorem gives_change {g : DatabaseFiles → DatabaseFiles} :
    Gives (change g) s u s' ↔ s' = { s with files := g s.files } := by
  simp [Gives, change, eq_comm]

@[simp] theorem gives_require_bind {holds : Bool} {fault : BackendFault} {f : Unit → Opening β} :
    Gives (require holds fault >>= f) s b s' ↔ holds = true ∧ Gives (f ()) s b s' := by
  cases holds with
  | true => simp [require]
  | false => simp [Gives, require]

@[simp] theorem gives_require {holds : Bool} {fault : BackendFault} :
    Gives (require holds fault) s u s' ↔ holds = true ∧ s' = s := by
  cases holds with
  | true => simp [require]
  | false => simp [Gives, require]

theorem gives_writeWithJournal {name : FileName} : Gives (writeWithJournal name) s u s' ↔
    Companion.journal.fits name = true ∧
      s' = { s with files := { s.files with journal := none } } := by
  simp [writeWithJournal]

end Opening

open Opening

variable {l : Location} {label : String} {name : FileName} {f : DatabaseFiles} {t : LeaseTable}
  {s s' : Session} {u : Unit} {page : FirstPage} {store left : TableStore}

/-- While a database is being opened its lock is free, and its log is in use if there is one. -/
structure Session.InUse (l : Location) (name : FileName) (s : Session) : Prop where
  lock : l.usesLockFile = true → Companion.lock.fits name = true ∧ s.files.lock = none
  log : s.usesLog = false → s.files.hasLog = false
  shared : s.usesLog = true → l.sharesLog = true ∧ Companion.log.fits name = true

/-- A database that was opened can be written to, and has a log just where one can be shared. -/
structure Session.Writable (l : Location) (name : FileName) (s : Session) : Prop
    extends s.InUse l name where
  writable : l.isReadOnly = false
  index : s.usesLog = true → l.keepsIndex = false
  usesLog_eq : s.usesLog = l.sharesLog
  startsLog_eq : s.files.content.startsLog = l.sharesLog

namespace Location

/-! ## Before the database is read -/

theorem gives_findFile : Gives (l.findFile label) s u s' ↔
    (s.files.main = none → l.access = .create) ∧
      s' = { s with files := { s.files with main := some s.files.content } } := by
  obtain ⟨⟨main, journal, log, index, lock⟩, usesLog⟩ := s
  cases main with
  | none => simp [findFile, DatabaseFiles.content]
  | some c => simp [findFile, DatabaseFiles.content]

theorem gives_lock : Gives (l.lock name) s u s' ↔
    (l.usesLockFile = true → Companion.lock.fits name = true ∧ s.files.lock = none) ∧ s' = s := by
  cases h : l.usesLockFile with
  | true => simp [lock, h, and_assoc]
  | false => simp [lock, h]

/-- A change that was interrupted is undone by means of the journal alone. -/
theorem journal_of_undo (h : Gives l.undo s u s') :
    ∃ journal, s' = { s with files := { s.files with journal := journal } } := by
  simp only [undo, gives_files_bind, gives_ite, gives_change, gives_pure, gives_require_bind] at h
  split at h
  · split at h
    · split at h
      · exact ⟨_, h.2⟩
      · exact ⟨_, h⟩
    · split at h
      · exact ⟨_, h.2⟩
      · exact ⟨_, h.2⟩
  · exact ⟨_, h.2⟩

theorem gives_undo (hp : s.files.content.hasPages = true) (ha : (l.access != .read) = true) :
    ∃ s', Gives l.undo s () s' := by
  simp only [undo, gives_files_bind, gives_ite, gives_change, gives_pure, gives_require_bind, hp,
    ha, Bool.not_true, Bool.false_eq_true, if_false, true_and]
  split
  · split
    · exact ⟨_, rfl⟩
    · exact ⟨_, rfl⟩
  · exact ⟨_, rfl⟩

theorem gives_findLog (h : s.files.hasLog = false) : Gives (l.findLog name) s u s' ↔ s' = s := by
  simp [findLog, h]

/-! ## The log -/

theorem index_of_openIndex (h : Gives l.openIndex s u s') :
    ∃ index, s' = { s with files := { s.files with index := index } } := by
  simp only [openIndex, gives_files_bind, gives_ite, gives_change, gives_pure, gives_require_bind,
    gives_require] at h
  split at h
  · exact ⟨_, h.2.2⟩
  · split at h
    · exact ⟨_, h⟩
    · exact ⟨_, h.2⟩

/-- A log that is opened is one that can be shared. -/
theorem shared_of_openLog (h : Gives (l.openLog name) s u s') :
    (l.sharesLog = true ∧ Companion.log.fits name = true) ∧
      ∃ log index, s' = ⟨{ s.files with log := log, index := index }, true⟩ := by
  simp only [openLog, gives_require_bind, gives_change_bind, gives_modify_bind,
    Bool.and_eq_true] at h
  obtain ⟨shared, h⟩ := h
  obtain ⟨index, rfl⟩ := index_of_openIndex h
  exact ⟨shared, _, index, rfl⟩

theorem gives_openLog (h : l.sharesLog = true) (hf : Companion.log.fits name = true)
    (hi : l.keepsIndex = false) : ∃ s', Gives (l.openLog name) s () s' := by
  simp only [openLog, openIndex, gives_require_bind, gives_change_bind, gives_modify_bind,
    gives_files_bind, gives_ite, gives_change, gives_pure, h, hf, hi, Bool.and_self,
    Bool.false_eq_true, if_false, true_and]
  split
  · exact ⟨_, rfl⟩
  · exact ⟨_, rfl⟩

/-- The lock stays free when a log is opened. -/
theorem inUse_of_openLog (h : s.InUse l name) (hg : Gives (l.openLog name) s u s') :
    s'.InUse l name ∧ s'.usesLog = true ∧ l.sharesLog = true ∧ s'.files.main = s.files.main := by
  obtain ⟨shared, _, _, rfl⟩ := shared_of_openLog hg
  exact ⟨⟨h.lock, nofun, fun _ => shared⟩, rfl, shared.1, rfl⟩

/-! ## The database -/

/-- After the first page was read the log is in use if the page tells of one. -/
theorem inUse_of_readPage (h : s.InUse l name) (hlog : s.usesLog = false)
    (hfrozen : l.isFrozen = false) (hg : Gives (l.readPage name) s page s') :
    s'.InUse l name ∧ s'.usesLog = s.files.content.startsLog ∧ s'.files.main = s.files.main ∧
      s.files.content.firstPage = .ok page := by
  simp only [readPage, gives_files_bind, gives_get_bind, hlog, hfrozen, gives_ite, Bool.not_false,
    Bool.and_true] at hg
  split at hg
  · next starts =>
    obtain ⟨_, s₁, hopen, hread⟩ := gives_bind.1 hg
    obtain ⟨hpage, rfl⟩ := gives_ofExcept.1 hread
    obtain ⟨h', hu, -, hmain⟩ := inUse_of_openLog h hopen
    exact ⟨h', by rw [hu, starts], hmain, hpage⟩
  · next starts =>
    obtain ⟨hpage, rfl⟩ := gives_ofExcept.1 hg
    exact ⟨h, by rw [hlog, eq_false_of_ne_true starts], rfl, hpage⟩

/-- After that the log is in use just where one can be shared, and the page tells of it. -/
theorem inUse_of_keepLog (h : s.InUse l name) (hlog : s.usesLog = s.files.content.startsLog)
    (hpage : s.files.content.firstPage = .ok page) (hg : Gives (l.keepLog name page) s u s') :
    s'.InUse l name ∧ s'.usesLog = l.sharesLog ∧ s'.files.content.startsLog = l.sharesLog := by
  simp only [keepLog, gives_get_bind, gives_ite, gives_require_bind, gives_pure] at hg
  split at hg
  · -- The log can be shared, and is not in use yet: the page is written first, then the log opened.
    obtain ⟨-, hg⟩ := hg
    obtain ⟨_, s₁, hwrite, hg⟩ := gives_bind.1 hg
    obtain ⟨-, rfl⟩ := gives_writeWithJournal.1 hwrite
    have h₁ : Session.InUse l name { s with
        files := { s.files with main := some s.files.content.withLog, journal := none } } :=
      ⟨h.lock, h.log, h.shared⟩
    obtain ⟨h', hu, hshares, hmain⟩ := inUse_of_openLog h₁ hg
    have starts : s'.files.content.startsLog = true := by
      rw [DatabaseFiles.content, hmain]
      exact FileContent.startsLog_withLog hpage
    exact ⟨h', by rw [hu, hshares], by rw [starts, hshares]⟩
  · next hneed =>
    obtain ⟨-, rfl⟩ := hg
    have used : s'.usesLog = l.sharesLog := by
      cases hu : s'.usesLog with
      | true => exact (h.shared hu).1.symm
      | false => simpa [hu] using hneed
    exact ⟨h, used, hlog ▸ used⟩

/-- A table is made in the database's own file, and with no journal left. -/
theorem inUse_of_makeTable (h : s.InUse l name) (hg : Gives (l.makeTable name page) s t s') :
    s'.InUse l name ∧ s'.usesLog = s.usesLog ∧
      s'.files.content.startsLog = s.files.content.startsLog := by
  simp only [makeTable, gives_get_bind, gives_require_bind] at hg
  obtain ⟨-, hg⟩ := hg
  split at hg
  · simp only [gives_require_bind, gives_change_bind, gives_pure] at hg
    obtain ⟨-, -, rfl⟩ := hg
    exact ⟨⟨h.lock, h.log, h.shared⟩, rfl, rfl⟩
  · obtain ⟨_, s₁, hwrite, hg⟩ := gives_bind.1 hg
    obtain ⟨-, rfl⟩ := gives_writeWithJournal.1 hwrite
    simp only [gives_require_bind, gives_change_bind, gives_pure] at hg
    obtain ⟨-, -, rfl⟩ := hg
    exact ⟨⟨h.lock, h.log, h.shared⟩, rfl, rfl⟩

/-! ## Step by step -/

/-- What is done before a database is read, if others may use it. -/
def prepare (l : Location) (name : FileName) : Opening Unit :=
  unless l.isFrozen do
    l.lock name
    l.undo
    l.findLog name

/-- The table that the first page tells of, or a new one. -/
def findTable (l : Location) (name : FileName) (page : FirstPage) : Opening LeaseTable :=
  match page.table with
  | some t => pure t
  | none => l.makeTable name page

theorem openStore_eq (l : Location) (label : String) (name : FileName) :
    l.openStore label name = do
      l.findFile label
      l.prepare name
      let page ← l.readPage name
      l.keepLog name page
      let table ← l.findTable name page
      return ⟨label, table, l.cannotWrite (← get)⟩ := by
  have read (page : FirstPage) (f : LeaseTable → Opening TableStore) :
      (match page.table with
        | some t => f t
        | none => l.makeTable name page >>= f) = l.findTable name page >>= f := by
    rw [findTable]
    cases page.table <;> simp
  unfold openStore prepare
  refine bind_congr fun _ => ?_
  cases l.isFrozen with
  | true =>
    simp only [if_true, pure_bind]
    exact bind_congr fun page => bind_congr fun _ => read page _
  | false =>
    simp only [Bool.false_eq_true, if_false, pure_bind, bind_assoc]
    exact bind_congr fun _ => bind_congr fun _ => bind_congr fun _ => bind_congr fun page =>
      bind_congr fun _ => read page _

theorem isReadOnly_eq_false_iff :
    l.isReadOnly = false ↔ (l.access != .read) = true ∧ l.isFrozen = false := by
  simp [isReadOnly, bne]

/-- Before a database is read its lock has been found free, and no log that was left is in use. -/
theorem inUse_of_prepare (hfrozen : l.isFrozen = false) (hlog : s.files.hasLog = false)
    (hu : s.usesLog = false) (hg : Gives (l.prepare name) s u s') :
    s'.InUse l name ∧ s'.usesLog = false ∧ s'.files.main = s.files.main := by
  rw [prepare, hfrozen] at hg
  obtain ⟨_, s₁, hlock, hrest⟩ := gives_bind.1 hg
  obtain ⟨_, s₂, hundo, hfind⟩ := gives_bind.1 hrest
  obtain ⟨free, rfl⟩ := gives_lock.1 hlock
  obtain ⟨journal, rfl⟩ := journal_of_undo hundo
  obtain rfl := (gives_findLog (by exact hlog)).1 hfind
  exact ⟨⟨free, fun _ => hlog, fun used => by rw [hu] at used; cases used⟩, hu, rfl⟩

/-- The table is found or made. -/
theorem inUse_of_findTable (h : s.InUse l name) (hg : Gives (l.findTable name page) s t s') :
    s'.InUse l name ∧ s'.usesLog = s.usesLog ∧
      s'.files.content.startsLog = s.files.content.startsLog := by
  rw [findTable] at hg
  cases hp : page.table with
  | some t' =>
    rw [hp] at hg
    obtain ⟨-, rfl⟩ := gives_pure.1 hg
    exact ⟨h, rfl, rfl⟩
  | none =>
    rw [hp] at hg
    exact inUse_of_makeTable h hg

/-- What was opened without a log that was left, and can be written to. -/
theorem writable_of_openStore (hlog : f.hasLog = false)
    (h : Gives (l.openStore label name) { files := f } store s) (hw : store.readOnly = false) :
    store.path = label ∧ s.Writable l name := by
  rw [openStore_eq] at h
  obtain ⟨_, s₁, hfind, h⟩ := gives_bind.1 h
  obtain ⟨_, s₂, hprepare, h⟩ := gives_bind.1 h
  obtain ⟨page, s₃, hread, h⟩ := gives_bind.1 h
  obtain ⟨_, s₄, hkeep, h⟩ := gives_bind.1 h
  obtain ⟨table, s₅, htable, h⟩ := gives_bind.1 h
  rw [gives_get_bind, gives_pure] at h
  obtain ⟨rfl, rfl⟩ := h
  obtain ⟨hwritable, hindex⟩ :
      l.isReadOnly = false ∧ (s.usesLog = true → l.keepsIndex = false) := by
    simpa [cannotWrite] using hw
  obtain ⟨-, hfrozen⟩ := isReadOnly_eq_false_iff.1 hwritable
  obtain ⟨-, rfl⟩ := gives_findFile.1 hfind
  obtain ⟨h₂, hu₂, -⟩ := inUse_of_prepare hfrozen hlog rfl hprepare
  obtain ⟨h₃, hu₃, hmain, hpage⟩ := inUse_of_readPage h₂ hu₂ hfrozen hread
  have content : s₃.files.content = s₂.files.content := congrArg (·.getD .empty) hmain
  rw [← content] at hu₃ hpage
  obtain ⟨h₄, hu₄, hstarts₄⟩ := inUse_of_keepLog h₃ hu₃ hpage hkeep
  obtain ⟨h₅, hu₅, hstarts₅⟩ := inUse_of_findTable h₄ htable
  exact ⟨rfl, h₅, hwritable, hindex, hu₅.trans hu₄, hstarts₅.trans hstarts₄⟩

/-! ## Leaving -/

/-- The files of a database that can be opened to be written to, and has a table. -/
structure InOrder (l : Location) (name : FileName) (f : DatabaseFiles) (t : LeaseTable) : Prop where
  writable : l.isReadOnly = false
  main : f.main = some (.database t l.sharesLog)
  log : f.hasLog = false
  lock : l.usesLockFile = true → Companion.lock.fits name = true ∧ f.lock = none
  shared : l.sharesLog = true → Companion.log.fits name = true ∧ l.keepsIndex = false

/-- What is left in a database is in its own file. -/
theorem written_eq (hw : left.readOnly = false) :
    ∃ journal, written s left = { s with
      files := { s.files with
        main := some (.database left.table s.files.content.startsLog), journal := journal } } := by
  simp only [written, hw, Bool.false_eq_true, if_false]
  split
  · exact ⟨_, rfl⟩
  · exact ⟨_, rfl⟩

/-- Who has used a log leaves none, and otherwise there was none. -/
theorem close_eq (haccess : (l.access != .read) = true) (h : s.InUse l name)
    (hindex : s.usesLog = true → l.keepsIndex = false) :
    ∃ log index, l.close s = { s.files with log := log, index := index } ∧
      (l.close s).hasLog = false := by
  cases hu : s.usesLog with
  | true =>
    simp only [close, hu, haccess, hindex hu, Bool.not_false, Bool.and_self, if_true]
    exact ⟨_, _, rfl, rfl⟩
  | false =>
    simp only [close, hu, Bool.false_and, Bool.false_eq_true, if_false]
    exact ⟨_, _, rfl, h.log hu⟩

/-- What is left of a database that can be written to is in order. -/
theorem InOrder.of_leave (h : s.Writable l name) (hw : left.readOnly = false) :
    l.InOrder name (l.leave s (.ok left)) left.table := by
  obtain ⟨haccess, -⟩ := isReadOnly_eq_false_iff.1 h.writable
  obtain ⟨journal, hwritten⟩ := written_eq (s := s) hw
  have used : (written s left).InUse l name := hwritten ▸ ⟨h.lock, h.log, h.shared⟩
  obtain ⟨log, index, hclose, hnoLog⟩ := close_eq haccess used (hwritten ▸ h.index)
  refine ⟨h.writable, ?_, hnoLog, ?_, fun hshares => ?_⟩
  · rw [leave, hclose, hwritten, h.startsLog_eq]
  · rw [leave, hclose, hwritten]
    exact h.lock
  · have hu : s.usesLog = true := h.usesLog_eq.trans hshares
    exact ⟨(h.shared hu).2, h.index hu⟩

/-! ## Opening again -/

/-- The first page is read, if a log that it tells of can be opened. -/
theorem gives_readPage (hpage : s.files.content.firstPage = .ok page)
    (hlog : s.files.content.startsLog = true → ∃ s', Gives (l.openLog name) s () s') :
    ∃ s', Gives (l.readPage name) s page s' := by
  simp only [readPage, gives_files_bind, gives_get_bind, gives_ite]
  split
  · next starts =>
    simp only [Bool.and_eq_true] at starts
    obtain ⟨s', hopen⟩ := hlog starts.1.1
    exact ⟨s', hopen.bind (gives_ofExcept.2 ⟨hpage, rfl⟩)⟩
  · exact ⟨s, gives_ofExcept.2 ⟨hpage, rfl⟩⟩

/-- A log that is in use where one can be shared is kept as it is. -/
theorem gives_keepLog (h : s.usesLog = l.sharesLog) : Gives (l.keepLog name page) s () s := by
  simp only [keepLog, gives_get_bind, gives_pure, h, Bool.and_not_self, Bool.false_eq_true,
    if_false, true_and]

theorem InOrder.content (h : l.InOrder name f t) (hmain : s.files.main = f.main) :
    s.files.content = .database t l.sharesLog := by
  rw [DatabaseFiles.content, hmain, h.main]
  rfl

/-- Nothing is in the way when a database is prepared that is in order. -/
theorem InOrder.prepare (h : l.InOrder name f t) :
    ∃ s, Gives (l.prepare name) { files := f } () s ∧
      s.InUse l name ∧ s.usesLog = false ∧ s.files.main = f.main := by
  obtain ⟨haccess, hfrozen⟩ := isReadOnly_eq_false_iff.1 h.writable
  have lock : Gives (l.lock name) { files := f } () { files := f } := gives_lock.2 ⟨h.lock, rfl⟩
  have pages : f.content.hasPages = true :=
    congrArg FileContent.hasPages (h.content (s := { files := f }) rfl)
  obtain ⟨s, undo⟩ := gives_undo (s := { files := f }) pages haccess
  obtain ⟨journal, rfl⟩ := journal_of_undo undo
  have prepared : Gives (l.prepare name) { files := f } ()
      { files := { f with journal := journal } } := by
    rw [Location.prepare, hfrozen]
    exact lock.bind (undo.bind ((gives_findLog (by exact h.log)).2 rfl))
  exact ⟨_, prepared, inUse_of_prepare hfrozen h.log rfl prepared⟩

/-- What is in order can be opened. -/
theorem InOrder.openStore (h : l.InOrder name f t) (label : String) :
    ∃ s, Gives (l.openStore label name) { files := f } ⟨label, t, false⟩ s := by
  obtain ⟨-, hfrozen⟩ := isReadOnly_eq_false_iff.1 h.writable
  have find : Gives (l.findFile label) { files := f } () { files := f } := by
    refine gives_findFile.2 ⟨fun hnone => ?_, ?_⟩
    · rw [h.main] at hnone
      cases hnone
    · rw [h.content rfl, ← h.main]
  obtain ⟨s₂, prepare, h₂, hu₂, hmain⟩ := h.prepare
  have content : s₂.files.content = .database t l.sharesLog := h.content hmain
  obtain ⟨s₃, read⟩ : ∃ s₃, Gives (l.readPage name) s₂ { table := some t } s₃ := by
    refine gives_readPage (by rw [content]; rfl) fun starts => ?_
    rw [content] at starts
    exact gives_openLog starts (h.shared starts).1 (h.shared starts).2
  obtain ⟨-, hu₃, -⟩ := inUse_of_readPage h₂ hu₂ hfrozen read
  rw [content] at hu₃
  -- From here on nothing is left to be done: the log is in use, and there is a table.
  have keep : Gives (l.keepLog name { table := some t }) s₃ () s₃ := gives_keepLog hu₃
  have table : Gives (l.findTable name { table := some t }) s₃ t s₃ := gives_pure.2 ⟨rfl, rfl⟩
  have writable : l.cannotWrite s₃ = false := by
    simp only [cannotWrite, h.writable, Bool.false_or, hu₃, FileContent.startsLog]
    cases hshares : l.sharesLog with
    | true => exact (h.shared hshares).2
    | false => rfl
  rw [openStore_eq]
  refine ⟨s₃, find.bind (prepare.bind (read.bind (keep.bind (table.bind ?_))))⟩
  rw [gives_get_bind, gives_pure, writable]
  exact ⟨rfl, rfl⟩

theorem openFiles_eq_ok_iff : l.openFiles label name f = (.ok store, s) ↔
    Gives (l.openStore label name) { files := f } store s := by
  rw [openFiles, Gives]
  cases (l.openStore label name).run { files := f } <;> simp

end Location

/-- What was left of a database that can be written to can be opened again, and is as it was left.
-/
theorem Session.Writable.openFiles_leave (h : s.Writable l name) (hw : store.readOnly = false)
    (hpath : store.path = label) :
    ∃ s', l.openFiles label name (l.leave s (.ok store)) = (.ok store, s') ∧
      s'.Writable l name := by
  have order : l.InOrder name (l.leave s (.ok store)) store.table := .of_leave h hw
  obtain ⟨s', hopen⟩ := order.openStore label
  obtain ⟨-, h'⟩ := Location.writable_of_openStore order.log hopen rfl
  have same : store = ⟨label, store.table, false⟩ := by rw [← hpath, ← hw]
  exact ⟨s', Location.openFiles_eq_ok_iff.2 (same ▸ hopen), h'⟩

end LabLease
