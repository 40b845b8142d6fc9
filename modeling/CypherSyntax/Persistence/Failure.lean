import CypherSyntax.Persistence
import CypherSyntax.Python.Runs

/-!
# Writes that raise

What `atomic_write_bytes` leaves at its destination for every pattern of failing calls of the
operating system.

Results:
* `atomicWriteBytes_runs`: when a write returns, when it raises, and what the destination then
  holds.
-/

namespace CypherSyntax

open Python

/-! ## When a write gets where -/

/-- Every call up to the replacement of the destination succeeds. -/
def Os.replaces (os : Os) : Bool :=
  !os.isLink && [OsCall.mkdir, .isSymlink, .mkstemp, .fdopen, .write, .flush, .fsync,
    .closeHandle, .replace].all fun call => !os.raises call

/-- The directory is not synced, and `_sync_directory` raises. -/
def Os.syncFails (os : Os) : Bool :=
  !os.windows &&
    (os.raises .openDirectory || os.raises .fsyncDirectory || os.raises .closeDirectory)

theorem Os.Quiet.replaces {os : Os} (h : os.Quiet) : os.replaces = true := by
  simp [Os.replaces, h.raises, h.isLink]

theorem Os.Quiet.not_syncFails {os : Os} (h : os.Quiet) : os.syncFails = false := by
  simp [Os.syncFails, h.raises]

variable {τ : Type} {os : Os}

theorem replaces_of_raises {call : OsCall} (h : os.raises call = true)
    (hcall : call ∈ [OsCall.mkdir, .isSymlink, .mkstemp, .fdopen, .write, .flush, .fsync,
      .closeHandle, .replace]) : os.replaces = false := by
  unfold Os.replaces
  rw [Bool.and_eq_false_iff]
  exact Or.inr (List.all_eq_false.mpr ⟨call, hcall, by simp [h]⟩)

/-! ## Calls -/

variable (os) in
/-- A call has its effect, or raises and has none. -/
theorem osCall_runs (call : OsCall) (effect : Target → Target) (s : Frame Target τ) :
    Runs (osCall os call effect) s
      (fun _ t => os.raises call = false ∧ t = ⟨effect s.self, s.log⟩)
      fun e t => os.raises call = true ∧ e = os.exception call ∧ t = s := by
  unfold osCall
  refine .bind_lift (fun _ h => ?_) fun _ h => ?_
  · exact .update ⟨Bool.not_eq_true _ ▸ raiseIf_ok.mp h, rfl⟩
  · obtain ⟨hraises, rfl⟩ := raiseIf_error.mp h
    exact ⟨hraises, rfl, rfl⟩

/-- A call that is given no path of its own raises `OSError` when it fails. -/
theorem osCall_runs' {call : OsCall} (hcall : os.unencoded call = false)
    (effect : Target → Target) (s : Frame Target τ) : Runs (osCall os call effect) s
      (fun _ t => os.fails call = false ∧ t = ⟨effect s.self, s.log⟩)
      fun e t => os.fails call = true ∧ isOsError e = true ∧ t = s := by
  obtain ⟨hraises, hexception⟩ := raises_of_encoded hcall
  refine (osCall_runs os call effect s).mono ?_ ?_
  · rintro _ _ ⟨hok, ht⟩
    exact ⟨hraises.symm.trans hok, ht⟩
  · rintro e _ ⟨hraised, rfl, ht⟩
    rw [hexception]
    exact ⟨hraises.symm.trans hraised, rfl, ht⟩

/-- The symbolic-link test answers, or raises `OSError`. -/
theorem isSymlink_runs (s : Frame Target τ) : Runs (isSymlink os) s
    (fun b t => os.raises .isSymlink = false ∧ b = os.isLink ∧ t = s)
    fun e t => os.raises .isSymlink = true ∧ isOsError e = true ∧ t = s := by
  unfold isSymlink
  refine .bind' (osCall_runs os .isSymlink id s) (fun _ t ht => ?_) fun e t ht => ?_
  · obtain ⟨hok, rfl⟩ := ht
    exact .pure ⟨hok, rfl, rfl⟩
  · obtain ⟨hraised, rfl, rfl⟩ := ht
    refine ⟨hraised, ?_, rfl⟩
    unfold Os.raises at hraised
    unfold Os.exception
    by_cases hencoded : os.unencoded .isSymlink = true
    · rw [if_pos hencoded] at hraised
      cases hraised
    · rw [if_neg hencoded]
      rfl

theorem syncDirectory_runs (s : Frame Target τ) : Runs (syncDirectory os) s
    (fun _ t => os.syncFails = false ∧ t = s)
    fun e t => os.syncFails = true ∧ isOsError e = true ∧ t = s := by
  unfold syncDirectory Os.syncFails
  refine .ite (fun hwindows => .pure ?_) fun hwindows => ?_
  · exact ⟨by rw [hwindows]; rfl, rfl⟩
  rw [Bool.not_eq_true] at hwindows
  refine .bind' (osCall_runs os .openDirectory id s) (fun _ _ ⟨hopen, ht⟩ => ?_)
    fun e t ⟨hopen, he, ht⟩ => ⟨by rw [hwindows, hopen]; rfl, he ▸ rfl, ht⟩
  subst ht
  refine .tryFinally ((osCall_runs os .fsyncDirectory id _).mono ?_ ?_)
  · rintro _ _ ⟨hsync, rfl⟩
    refine (osCall_runs os .closeDirectory id _).mono ?_ ?_
    · rintro _ _ ⟨hclose, rfl⟩
      exact ⟨by rw [hwindows, hopen, hsync, hclose]; rfl, rfl⟩
    · rintro _ _ ⟨hclose, rfl, rfl⟩
      exact ⟨by rw [hwindows, hopen, hsync, hclose]; rfl, rfl, rfl⟩
  · rintro _ _ ⟨hsync, rfl, rfl⟩
    refine (osCall_runs os .closeDirectory id _).mono ?_ ?_
    · rintro _ _ ⟨-, rfl⟩
      exact ⟨by rw [hwindows, hopen, hsync]; rfl, rfl, rfl⟩
    · rintro _ _ ⟨-, rfl, rfl⟩
      exact ⟨by rw [hwindows, hopen, hsync]; rfl, rfl, rfl⟩

/-- A write through the handle leaves only the temporary file changed. -/
theorem writeHandle_runs (data : Bytes) (s : Frame Target τ) : Runs (writeHandle os data) s
    (fun _ t => os.fails .write = false ∧ t = ⟨{ s.self with temporary := some data }, s.log⟩)
    fun e t => os.fails .write = true ∧ isOsError e = true ∧
      ∃ temporary, t = ⟨{ s.self with temporary }, s.log⟩ := by
  unfold writeHandle
  refine .ite (fun hfail => ?_) fun _ => ?_
  · refine .bind_run (Method.run_update _ _) ((osCall_runs' rfl _ _).mono ?_ ?_)
    · rintro _ _ ⟨hok, -⟩
      rw [hfail] at hok
      cases hok
    · rintro e _ ⟨-, he, rfl⟩
      exact ⟨hfail, he, _, rfl⟩
  · exact (osCall_runs' rfl _ s).mono (fun _ _ h => h) fun e t ⟨hfail, he, ht⟩ =>
      ⟨hfail, he, s.self.temporary, ht⟩

/-- A call whose failure is ignored has its effect or none. -/
theorem ignoringOsError_runs {E : PyError → Frame Target τ → Prop} {call : OsCall}
    (hcall : os.unencoded call = false) (effect : Target → Target) (s : Frame Target τ) :
    Runs (ignoringOsError (osCall os call effect)) s
      (fun _ t => t = ⟨if os.fails call then s.self else effect s.self, s.log⟩) E :=
  .of_run (ignoringOsError_run hcall s) rfl

/-! ## The body of the write -/

/-- The calls of the body up to the replacement succeed. -/
def Os.writes (os : Os) : Bool :=
  [OsCall.mkstemp, .fdopen, .write, .flush, .fsync, .closeHandle, .replace].all
    fun call => !os.raises call

theorem writes_of_raises (call : OsCall) (h : os.raises call = true)
    (hcall : call ∈ [OsCall.mkstemp, .fdopen, .write, .flush, .fsync, .closeHandle, .replace]) :
    os.writes = false :=
  List.all_eq_false.mpr ⟨call, hcall, by simp [h]⟩

/-- What the body has done to the files when it ends. -/
structure Written (os : Os) (data : Bytes) (s t : Frame Target τ) : Prop where
  log : t.log = s.log
  /-- The destination was replaced, and nothing is left to clean up. -/
  replaced : os.writes = true → t.self.destination = some data ∧ t.self.descriptor = false ∧
    t.self.temporaryPath = false
  kept : os.writes = false → t.self.destination = s.self.destination

/-- A failing call before the replacement leaves the destination as it is. -/
theorem Written.of_raises {call : OsCall} {data : Bytes} {s t : Frame Target τ}
    (h : os.raises call = true)
    (hcall : call ∈ [OsCall.mkstemp, .fdopen, .write, .flush, .fsync, .closeHandle, .replace])
    (hlog : t.log = s.log) (hkept : t.self.destination = s.self.destination) :
    Written os data s t where
  log := hlog
  replaced hwrites := absurd ((writes_of_raises _ h hcall).symm.trans hwrites) Bool.false_ne_true
  kept _ := hkept

/-- The handle is written, flushed, synced and closed. -/
theorem writeClosed_runs (data : Bytes) (s : Frame Target τ) :
    Runs (Method.tryFinally
      (do
        writeHandle os data
        osCall os .flush id
        osCall os .fsync id)
      (osCall os .closeHandle id)) s
      (fun _ t => os.fails .write = false ∧ os.fails .flush = false ∧ os.fails .fsync = false ∧
        os.fails .closeHandle = false ∧ t = ⟨{ s.self with temporary := some data }, s.log⟩)
      fun _ t => t.log = s.log ∧ t.self.destination = s.self.destination ∧ os.writes = false := by
  have hclose : ∀ t : Frame Target τ, t.log = s.log →
      t.self.destination = s.self.destination → os.writes = false →
      Runs (osCall os .closeHandle id) t
        (fun _ u => u.log = s.log ∧ u.self.destination = s.self.destination ∧ os.writes = false)
        fun _ u => u.log = s.log ∧ u.self.destination = s.self.destination ∧
          os.writes = false := by
    intro t hlog hkept hwrites
    refine (osCall_runs os .closeHandle id t).mono ?_ ?_
    · rintro _ _ ⟨-, rfl⟩
      exact ⟨hlog, hkept, hwrites⟩
    · rintro _ _ ⟨-, -, rfl⟩
      exact ⟨hlog, hkept, hwrites⟩
  refine .tryFinally (.bind' (writeHandle_runs data s) (fun _ t ht => ?_) fun e t ht => ?_)
  · obtain ⟨hwrite, rfl⟩ := ht
    refine .bind' (osCall_runs' rfl id _) (fun _ t ht => ?_) fun e t ht => ?_
    · obtain ⟨hflush, rfl⟩ := ht
      refine (osCall_runs' rfl id _).mono ?_ ?_
      · rintro _ _ ⟨hfsync, rfl⟩
        refine (osCall_runs' rfl id _).mono ?_ ?_
        · rintro _ _ ⟨hclosed, rfl⟩
          exact ⟨hwrite, hflush, hfsync, hclosed, rfl⟩
        · rintro e _ ⟨hfail, -, rfl⟩
          exact ⟨rfl, rfl, writes_of_raises .closeHandle hfail (by simp)⟩
      · rintro e _ ⟨hfail, -, rfl⟩
        exact hclose _ rfl rfl (writes_of_raises .fsync hfail (by simp))
    · obtain ⟨hfail, -, rfl⟩ := ht
      exact hclose _ rfl rfl (writes_of_raises .flush hfail (by simp))
  · obtain ⟨hfail, -, temporary, rfl⟩ := ht
    exact hclose _ rfl rfl (writes_of_raises .write hfail (by simp))

/-- **What the body of the write does**: it returns when the destination is replaced and the
directory synced. -/
theorem writeAndReplace_runs (data : Bytes) (s : Frame Target τ) :
    Runs (writeAndReplace os data) s
      (fun _ t => os.writes = true ∧ os.syncFails = false ∧ Written os data s t)
      fun _ t => (os.writes = true → os.syncFails = true) ∧ Written os data s t := by
  have hraise : ∀ (call : OsCall) (t : Frame Target τ), os.raises call = true →
      call ∈ [OsCall.mkstemp, .fdopen, .write, .flush, .fsync, .closeHandle, .replace] →
      t.log = s.log → t.self.destination = s.self.destination →
      (os.writes = true → os.syncFails = true) ∧ Written os data s t := by
    intro call t hraises hcall hlog hkept
    refine ⟨fun hwrites => ?_, .of_raises hraises hcall hlog hkept⟩
    exact absurd ((writes_of_raises _ hraises hcall).symm.trans hwrites) Bool.false_ne_true
  unfold writeAndReplace
  refine .bind' (osCall_runs os .mkstemp _ s) (fun _ t ht => ?_) fun e t ht => ?_
  swap
  · obtain ⟨hraises, -, rfl⟩ := ht
    exact hraise .mkstemp _ hraises (by simp) rfl rfl
  obtain ⟨hmkstemp, rfl⟩ := ht
  refine .bind (ignoringOsError_runs rfl id _) fun _ t ht => ?_
  rw [id, ite_self] at ht
  subst ht
  refine .bind' (osCall_runs os .fdopen _ _) (fun _ t ht => ?_) fun e t ht => ?_
  swap
  · obtain ⟨hraises, -, rfl⟩ := ht
    exact hraise .fdopen _ hraises (by simp) rfl rfl
  obtain ⟨hfdopen, rfl⟩ := ht
  refine .bind' (writeClosed_runs data _) (fun _ t ht => ?_) fun e t ht => ?_
  swap
  · obtain ⟨hlog, hkept, hwrites⟩ := ht
    refine ⟨fun h => absurd (hwrites.symm.trans h) Bool.false_ne_true, hlog, fun h => ?_,
      fun _ => hkept⟩
    exact absurd (hwrites.symm.trans h) Bool.false_ne_true
  obtain ⟨hwrite, hflush, hfsync, hclose, rfl⟩ := ht
  refine .bind' (osCall_runs os .replace _ _) (fun _ t ht => ?_) fun e t ht => ?_
  swap
  · obtain ⟨hraises, -, rfl⟩ := ht
    exact hraise .replace _ hraises (by simp) rfl rfl
  obtain ⟨hreplace, rfl⟩ := ht
  have hwrites : os.writes = true := by
    simp only [Os.writes, List.all_cons, List.all_nil, hmkstemp, hfdopen, hreplace]
    simp [Os.raises, Os.unencoded, hwrite, hflush, hfsync, hclose]
  refine .bind_run (Method.run_update _ _)
    (.bind (ignoringOsError_runs rfl id _) fun _ t ht => ?_)
  rw [id, ite_self] at ht
  subst ht
  have hwritten : ∀ t : Frame Target τ, t = ⟨⟨some data, none, false, false⟩, s.log⟩ →
      Written os data s t := by
    rintro _ rfl
    exact ⟨rfl, fun _ => ⟨rfl, rfl, rfl⟩, fun h => absurd (h.symm.trans hwrites) Bool.false_ne_true⟩
  refine (syncDirectory_runs _).mono ?_ ?_
  · rintro _ _ ⟨hsync, rfl⟩
    exact ⟨hwrites, hsync, hwritten _ rfl⟩
  · rintro e _ ⟨hsync, -, rfl⟩
    exact ⟨fun _ => hsync, hwritten _ rfl⟩

/-! ## The clean-up -/

theorem unlinkTemporary_runs {E : PyError → Frame Target τ → Prop} (s : Frame Target τ) :
    Runs (unlinkTemporary os) s
      (fun _ t => t.log = s.log ∧ t.self.destination = s.self.destination) E := by
  unfold unlinkTemporary
  refine .bind_run (Method.run_self s) (.ite (fun _ => ?_) fun _ => .pure ⟨rfl, rfl⟩)
  refine (ignoringOsError_runs rfl _ s).mono ?_ fun _ _ h => h
  rintro _ _ rfl
  by_cases hfail : os.fails .unlink = true
  · rw [if_pos hfail]
    exact ⟨rfl, rfl⟩
  · rw [if_neg hfail]
    exact ⟨rfl, rfl⟩

/-- The clean-up does not touch the destination, and raises only when it closes a descriptor. -/
theorem cleanUp_runs (s : Frame Target τ) : Runs (cleanUp os) s
    (fun _ t => t.log = s.log ∧ t.self.destination = s.self.destination)
    fun _ t => s.self.descriptor = true ∧ t = s := by
  unfold cleanUp
  refine .bind_run (Method.run_self s) (.ite (fun hopen => ?_) fun _ => unlinkTemporary_runs s)
  refine .bind' (osCall_runs os .close _ s) (fun _ t ht => ?_) fun e t ⟨_, _, ht⟩ => ⟨hopen, ht⟩
  obtain ⟨-, rfl⟩ := ht
  exact unlinkTemporary_runs _

/-! ## The write -/

/-- **What a write leaves, for every pattern of failing calls.** -/
theorem atomicWriteBytes_runs (data : Bytes) (s : Frame Target τ) :
    Runs (atomicWriteBytes os (.bytes data)) s
      (fun _ t => t.log = s.log ∧ os.replaces = true ∧ os.syncFails = false ∧
        t.self.destination = some data)
      fun _ t => t.log = s.log ∧
        (os.replaces = true ∧ os.syncFails = true ∧ t.self.destination = some data ∨
          os.replaces = false ∧ t.self.destination = s.self.destination) := by
  have hreplaces : os.replaces =
      (!os.isLink && !os.raises .mkdir && !os.raises .isSymlink && os.writes) := by
    simp [Os.replaces, Os.writes, Bool.and_assoc]
  unfold atomicWriteBytes
  refine .bind' (.convert ((osCall_runs os .mkdir id s).mono (fun _ _ h => h) fun e t h => ?_))
    (fun _ t ht => ?_) fun _ _ h => h
  · obtain ⟨hfail, -, rfl⟩ := h
    exact ⟨rfl, Or.inr ⟨replaces_of_raises hfail (by simp), rfl⟩⟩
  obtain ⟨hmkdir, rfl⟩ := ht
  refine .bind' (isSymlink_runs _) (fun _ t ht => ?_) fun e t ht => ?_
  swap
  · obtain ⟨hraises, -, rfl⟩ := ht
    exact ⟨rfl, Or.inr ⟨replaces_of_raises hraises (by simp), rfl⟩⟩
  obtain ⟨htest, rfl, rfl⟩ := ht
  refine .bind_lift (fun _ hok => ?_) fun e hraise => ?_
  swap
  · refine ⟨rfl, Or.inr ⟨?_, rfl⟩⟩
    rw [Os.replaces, (raiseIf_error.mp hraise).1]
    rfl
  have hfile : os.isLink = false := Bool.not_eq_true _ ▸ raiseIf_ok.mp hok
  rw [hfile, hmkdir, htest] at hreplaces
  have hreplaces : os.replaces = os.writes := hreplaces
  rw [hreplaces]
  refine .tryFinally (.convert ((writeAndReplace_runs data _).mono ?_ ?_))
  · rintro _ t ⟨hwrites, hsync, hwritten⟩
    obtain ⟨hdata, hclosed, -⟩ := hwritten.replaced hwrites
    refine (cleanUp_runs t).mono ?_ ?_
    · rintro _ u ⟨hlog, hkept⟩
      exact ⟨hlog.trans hwritten.log, hwrites, hsync, hkept.trans hdata⟩
    · rintro _ _ ⟨hopen, -⟩
      rw [hclosed] at hopen
      cases hopen
  · rintro _ t ⟨hsync, hwritten⟩
    have hend : ∀ u : Frame Target τ, u.self.destination = t.self.destination → u.log = t.log →
        u.log = s.log ∧ (os.writes = true ∧ os.syncFails = true ∧
          u.self.destination = some data ∨
          os.writes = false ∧ u.self.destination = s.self.destination) := by
      intro u hkept hlog
      refine ⟨hlog.trans hwritten.log, ?_⟩
      rcases Bool.eq_false_or_eq_true os.writes with hwrites | hwrites
      · exact Or.inl ⟨hwrites, hsync hwrites, hkept.trans (hwritten.replaced hwrites).1⟩
      · exact Or.inr ⟨hwrites, hkept.trans (hwritten.kept hwrites)⟩
    refine (cleanUp_runs t).mono (fun _ u ⟨hlog, hkept⟩ => hend u hkept hlog) ?_
    rintro _ _ ⟨-, rfl⟩
    exact hend _ rfl rfl

end CypherSyntax
