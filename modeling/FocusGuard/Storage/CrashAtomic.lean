import FocusGuard.Lib.AtomicFile
import FocusGuard.Storage.SignedState
import FocusGuard.Storage.StateFile

/-!
# Saving the state survives crashes

A machine on which one process at a time saves and loads the state, in the steps of
`focusguard/storage/state.py`, and which may crash between any two of them. The directory is the one
that `_ensure_dir` settles on. Nothing is assumed of what a crash leaves of the file of the key,
which is never flushed to the disk.

## Main definitions

* `Machine.Step`: the steps of the processes, and the crash.
* `Machine.CrashAtomic`: what is asked of a run.

## Main results

* `Machine.Sound.step`, `Machine.Sound.run`: the state file is what the last completed save wrote.
* `crash_atomic`: every run from a machine at rest is crash-atomic.
-/

namespace FocusGuard

/-! ## Machines -/

/-- What a call of the manager returns. -/
inductive Answer where
  | saved
  | loaded (config : RawConfig) (session : RawSession) (verified : Bool)

/-- How far a call of `save` has come before its last step. -/
inductive SavePoint where
  | called
  | ensured
  | signed (content : Bytes)
  | opened

/-- What a process is doing. Where `load` saves the defaults, their answer is what it returns. -/
inductive Task (fl : Floats) where
  | idle
  | loading
  | looking
  | saving (data : StoredData fl) (point : SavePoint) (answer : Answer)
  | answering (answer : Answer)

structure Process (fl : Floats) where
  secret : Option Bytes := none
  task : Task fl := .idle

/-- `state.json` is the target of `swap`, `state.json.tmp` its temporary file. -/
structure Machine (fl : Floats) where
  dir : Bool
  swap : Swap UInt8
  secretFile : Option Bytes
  corruptFile : Option (File UInt8)
  process : Option (Process fl)

inductive DiskEvent (fl : Floats) where
  | boot
  | save (data : StoredData fl)
  | load
  | ensureDir
  | missing
  | read (env : CallEnv)
  | corrupt
  | sign (env : CallEnv)
  | create
  | write (piece : Bytes)
  | sync
  | replace (content : Bytes)
  | answer (answer : Answer)
  | raised
  | crash

namespace Machine

variable {fl : Floats} (rt : Runtime)

def stateFile (m : Machine fl) : Option Bytes := m.swap.target.map File.content

def task (m : Machine fl) : Task fl := (m.process.map Process.task).getD .idle

/-- The manager of a process, as far as the key goes. -/
def manager (m : Machine fl) (p : Process fl) : StateManager :=
  ⟨{ secretFile := m.secretFile }, p.secret⟩

/-- The process has used the key of this manager. -/
def withKey (m : Machine fl) (keyed : StateManager) (task : Task fl) : Machine fl :=
  { m with secretFile := keyed.disk.secretFile, process := some ⟨keyed.secret, task⟩ }

def withTask (m : Machine fl) (p : Process fl) (task : Task fl) : Machine fl :=
  { m with process := some { p with task := task } }

def withTemp (m : Machine fl) (temp : Option (File UInt8)) : Machine fl :=
  { m with swap := { m.swap with temp := temp } }

/-- Whether the stored signature is the expected one. -/
def verified (value : Json) (expected : Text) : Bool :=
  (Json.lookup value.members "hmac_signature").bind Json.text? = some expected

inductive Step : Machine fl → DiskEvent fl → Machine fl → Prop where
  | boot {m : Machine fl} (h : m.process = none) : Step m .boot { m with process := some {} }
  | save {m : Machine fl} {p : Process fl} (h : m.process = some p) (ht : p.task = .idle)
      (data : StoredData fl) : Step m (.save data) (m.withTask p (.saving data .called .saved))
  | load {m : Machine fl} {p : Process fl} (h : m.process = some p) (ht : p.task = .idle) :
      Step m .load (m.withTask p .loading)
  | ensureLoad {m : Machine fl} {p : Process fl} (h : m.process = some p)
      (ht : p.task = .loading) : Step m .ensureDir { m.withTask p .looking with dir := true }
  /-- There is no state file: the defaults are saved. -/
  | missing {m : Machine fl} {p : Process fl} (h : m.process = some p) (ht : p.task = .looking)
      (hf : m.swap.target = none) :
      Step m .missing (m.withTask p (.saving (.default fl) .called (.loaded {} {} true)))
  | read {m : Machine fl} {p : Process fl} {f : File UInt8} {value : Json} {config : RawConfig}
      {session : RawSession} {env : CallEnv} {expected : Text} {keyed : StateManager}
      (h : m.process = some p) (ht : p.task = .looking) (hf : m.swap.target = some f)
      (hvalue : jsonLoad fl f.content = some value) (hread : readRaw value = some (config, session))
      (hmac : calculateHmac rt env value.members (m.manager p) = (.ok expected, keyed)) :
      Step m (.read env) (m.withKey keyed
        (.answering (.loaded config session (verified value expected))))
  /-- An exception while the state file is read: it is moved away, and the defaults are saved. -/
  | corrupt {m : Machine fl} {p : Process fl} {f : File UInt8} {swap : Swap UInt8}
      (h : m.process = some p) (ht : p.task = .looking) (hf : m.swap.target = some f)
      (hread : readBytes fl f.content = none) (hs : Swap.Step m.swap .remove swap) :
      Step m .corrupt { m.withTask p (.saving (.default fl) .called (.loaded {} {} false)) with
        swap := swap, corruptFile := some f }
  | ensureSave {m : Machine fl} {p : Process fl} {data : StoredData fl} {answer : Answer}
      (h : m.process = some p) (ht : p.task = .saving data .called answer) :
      Step m .ensureDir { m.withTask p (.saving data .ensured answer) with dir := true }
  | sign {m : Machine fl} {p : Process fl} {data : StoredData fl} {answer : Answer}
      {env : CallEnv} {signature : Text} {keyed : StateManager}
      (h : m.process = some p) (ht : p.task = .saving data .ensured answer)
      (hmac : calculateHmac rt env (rawMembers data.config data.session data.hmacSignature)
        (m.manager p) = (.ok signature, keyed)) :
      Step m (.sign env) (m.withKey keyed
        (.saving data (.signed (writtenBytes data signature)) answer))
  | create {m : Machine fl} {p : Process fl} {data : StoredData fl} {answer : Answer}
      {content : Bytes} {swap : Swap UInt8} (h : m.process = some p)
      (ht : p.task = .saving data (.signed content) answer) (hd : m.dir = true)
      (hs : Swap.Step m.swap (.create content) swap) :
      Step m .create { m.withTask p (.saving data .opened answer) with swap := swap }
  | write {m : Machine fl} {p : Process fl} {data : StoredData fl} {answer : Answer}
      {piece : Bytes} {swap : Swap UInt8} (h : m.process = some p)
      (ht : p.task = .saving data .opened answer) (hs : Swap.Step m.swap (.write piece) swap) :
      Step m (.write piece) { m with swap := swap }
  | sync {m : Machine fl} {p : Process fl} {data : StoredData fl} {answer : Answer}
      {swap : Swap UInt8} (h : m.process = some p)
      (ht : p.task = .saving data .opened answer) (hs : Swap.Step m.swap .sync swap) :
      Step m .sync { m with swap := swap }
  | replace {m : Machine fl} {p : Process fl} {data : StoredData fl} {answer : Answer}
      {content : Bytes} {swap : Swap UInt8} (h : m.process = some p)
      (ht : p.task = .saving data .opened answer)
      (hs : Swap.Step m.swap (.replace content) swap) :
      Step m (.replace content) { m.withTask p (.answering answer) with swap := swap }
  | answer {m : Machine fl} {p : Process fl} {answer : Answer} (h : m.process = some p)
      (ht : p.task = .answering answer) : Step m (.answer answer) (m.withTask p .idle)
  /-- A save that raises leaves the process running. -/
  | raised {m : Machine fl} {p : Process fl} {data : StoredData fl} {point : SavePoint}
      {answer : Answer} {swap : Swap UInt8} (h : m.process = some p)
      (ht : p.task = .saving data point answer) (hs : Swap.Step m.swap .abandon swap) :
      Step m .raised { m.withTask p .idle with swap := swap }
  | crash {m : Machine fl} {swap : Swap UInt8} {secretFile : Option Bytes}
      {corruptFile : Option (File UInt8)} (hs : Swap.Step m.swap .crash swap)
      (hc : File.AfterCrash m.corruptFile corruptFile) :
      Step m .crash ⟨m.dir, swap, secretFile, corruptFile, none⟩

/-! ## What is asked -/

/-- These are the bytes that a save of the record writes, under some key. -/
def Written (data : StoredData fl) (content : Bytes) : Prop :=
  ∃ key, content = writtenBytes data (hexdigest (rt.hmacSha256 key
    (rt.dumps (.obj (unsigned (rawMembers data.config data.session data.hmacSignature))))))

/-- A machine on which no process runs and every save has been completed. -/
structure AtRest (m : Machine fl) : Prop where
  process : m.process = none
  stage : m.swap.stage = .idle
  target : ∀ f ∈ m.swap.target, f.synced = true ∧
    ∃ data : StoredData fl, Written rt data f.content

end Machine

namespace DiskEvent

variable {fl : Floats}

/-- The record whose save the event begins. -/
def begins : DiskEvent fl → Option (StoredData fl)
  | .save data => some data
  | .missing => some (.default fl)
  | .corrupt => some (.default fl)
  | _ => none

/-- The result of the last completed save; the last step of a save is the replacement. -/
def result (last : Option Bytes) : DiskEvent fl → Option Bytes
  | .replace content => some content
  | _ => last

/-- What the last completed save of a run wrote, or what was there before. -/
def lastSave (before : Option Bytes) (es : List (DiskEvent fl)) : Option Bytes :=
  es.foldl result before

end DiskEvent

namespace Machine

open DiskEvent

variable {fl : Floats} (rt : Runtime)

/-- A run in which no crash has done any harm. -/
structure CrashAtomic (m : Machine fl) (es : List (DiskEvent fl)) (m' : Machine fl) : Prop where
  /-- The state file is, byte for byte, what the last completed save wrote. -/
  completed : m'.stateFile = lastSave m.stateFile es
  /-- While a save is under way, and after it was interrupted, the state file is what the last
  save before it wrote or what it writes itself. -/
  interrupted : ∀ before e data rest, es = before ++ e :: rest → e.begins = some data →
    (∀ e' ∈ rest, e'.begins = none) → m'.stateFile = lastSave m.stateFile before ∨
      ∃ content, m'.stateFile = some content ∧ Written rt data content
  /-- No `load` has taken the branch for a corrupted file. -/
  neverCorrupt : .corrupt ∉ es
  /-- The state file was written for a record. -/
  written : ∀ content, m'.stateFile = some content →
    ∃ data : StoredData fl, Written rt data content
  /-- After a crash a new process loads that record. -/
  loads : ∀ content (data : StoredData fl) env, m'.process = none →
    m'.stateFile = some content → Written rt data content → ∃ verified m'',
      Run (Step rt) m' [.boot, .load, .ensureDir, .read env,
        .answer (.loaded data.config.sorted data.session.sorted verified)] m''
  /-- Whatever is in the temporary file while no call is under way, the run goes on in the same
  way: the same saves are completed and the same records loaded. -/
  leftover : ∀ before k after temp, es = before ++ after → Run (Step rt) m before k →
    k.task = .idle → Run (Step rt) k after m' →
    ∃ temp', Run (Step rt) (k.withTemp temp) after (m'.withTemp temp')

/-! ## The invariant -/

/-- What a save has signed or is writing is what it is to write; nothing else writes. -/
def TaskSound (stage : Stage UInt8) : Task fl → Prop
  | .saving data (.signed content) _ => stage = .idle ∧ Written rt data content
  | .saving data .opened _ => ∃ content, stage.content? = some content ∧ Written rt data content
  | _ => stage = .idle

/-- The state file is the result of the last save, as a whole and on the disk. -/
structure Sound (last : Option Bytes) (m : Machine fl) : Prop where
  swap : m.swap.Sound last
  written : ∀ content ∈ last, ∃ data : StoredData fl, Written rt data content
  task : TaskSound rt m.swap.stage m.task

variable {rt} {m m' : Machine fl} {e : DiskEvent fl} {es : List (DiskEvent fl)}
  {last : Option Bytes}

theorem Written.readBytes {data : StoredData fl} {content : Bytes} (h : Written rt data content) :
    readBytes fl content = some (data.config.sorted, data.session.sorted) := by
  obtain ⟨key, rfl⟩ := h
  exact readBytes_writtenBytes data (isAscii_hexdigest _)

/-- A save writes what its signature says. -/
theorem written_of_calculateHmac {data : StoredData fl} {env : CallEnv} {signature : Text}
    {manager keyed : StateManager}
    (h : calculateHmac rt env (rawMembers data.config data.session data.hmacSignature) manager =
      (.ok signature, keyed)) : Written rt data (writtenBytes data signature) := by
  obtain ⟨key, t, -, hsignature⟩ := Exec.bind_eq_ok.mp h
  cases hsignature
  exact ⟨key, rfl⟩

theorem task_of_process {p : Process fl} (h : m.process = some p) : m.task = p.task := by
  rw [task, h]
  rfl

theorem Sound.stateFile (h : m.Sound rt last) : m.stateFile = last := by
  rw [Machine.stateFile, h.swap.target]
  cases last with
  | none => rfl
  | some content => rfl

/-- A file that was written by a save can be read. -/
theorem Sound.readable (h : m.Sound rt last) {f : File UInt8} (hf : m.swap.target = some f) :
    ∃ data : StoredData fl, Written rt data f.content ∧
      readBytes fl f.content = some (data.config.sorted, data.session.sorted) := by
  have hlast := h.swap.target
  rw [hf] at hlast
  cases last with
  | none => cases hlast
  | some content =>
    obtain rfl : f = ⟨content, true⟩ := Option.some.inj hlast
    obtain ⟨data, hdata⟩ := h.written content rfl
    exact ⟨data, hdata, hdata.readBytes⟩

/-- What is known of the task of a process. -/
theorem Sound.taskSound (h : m.Sound rt last) {p : Process fl} {t : Task fl}
    (hp : m.process = some p) (ht : p.task = t) : TaskSound rt m.swap.stage t := by
  rw [← ht, ← task_of_process hp]
  exact h.task

/-- The file that `load` reads was written by a save. -/
theorem Sound.ne_corrupt (h : m.Sound rt last) (hstep : Step rt m e m') : e ≠ .corrupt := by
  rintro rfl
  cases hstep with
  | corrupt hp ht hf hread hs =>
    obtain ⟨data, -, hdata⟩ := h.readable hf
    rw [hread] at hdata
    cases hdata

/-- While a file is written, what is written stays the same. -/
theorem Sound.step_opened (h : m.Sound rt last) {p : Process fl} {data : StoredData fl}
    {answer : Answer} {op : Swap.Op UInt8} {swap : Swap UInt8} (hp : m.process = some p)
    (ht : p.task = .saving data .opened answer) (hs : Swap.Step m.swap op swap)
    (hcontent : swap.stage.content? = m.swap.stage.content?)
    (hresult : Swap.Op.result last op = last) :
    Sound rt last { m with swap := swap } := by
  have hswap := h.swap.step hs
  rw [hresult] at hswap
  refine ⟨hswap, h.written, ?_⟩
  have htask : ({ m with swap := swap } : Machine fl).task = .saving data .opened answer :=
    (task_of_process (m := { m with swap := swap }) hp).trans ht
  obtain ⟨content, heq, hwritten⟩ := h.taskSound hp ht
  rw [htask]
  exact ⟨content, hcontent.trans heq, hwritten⟩

theorem Sound.step (h : m.Sound rt last) (hstep : Step rt m e m') :
    m'.Sound rt (e.result last) := by
  have hne := h.ne_corrupt hstep
  cases hstep with
  | boot hp =>
    have htask := h.task
    rw [Machine.task, hp] at htask
    exact ⟨h.swap, h.written, htask⟩
  | save hp ht | load hp ht | ensureLoad hp ht | missing hp ht | read hp ht | ensureSave hp ht
  | answer hp ht =>
    have hidle : m.swap.stage = .idle := h.taskSound hp ht
    exact ⟨h.swap, h.written, hidle⟩
  | corrupt => exact absurd rfl hne
  | sign hp ht hmac =>
    have hidle : m.swap.stage = .idle := h.taskSound hp ht
    exact ⟨h.swap, h.written, hidle, written_of_calculateHmac hmac⟩
  | create hp ht hd hs =>
    have hswap := h.swap.step hs
    obtain ⟨-, hwritten⟩ := h.taskSound hp ht
    cases hs
    exact ⟨hswap, h.written, _, rfl, hwritten⟩
  | write hp ht hs =>
    refine h.step_opened hp ht hs ?_ rfl
    cases hs with
    | write hstage hf => rw [hstage]; rfl
  | sync hp ht hs =>
    refine h.step_opened hp ht hs ?_ rfl
    cases hs with
    | sync hstage hf => rw [hstage]; rfl
  | @replace p data answer content swap hp ht hs =>
    have hswap := h.swap.step hs
    obtain ⟨content', hcontent, hwritten⟩ := h.taskSound hp ht
    cases hs with
    | replace hstage hf =>
      rw [hstage] at hcontent
      obtain rfl : content = content' := Option.some.inj hcontent
      refine ⟨hswap, fun _ hlast => ⟨data, ?_⟩, rfl⟩
      rwa [← Option.some.inj hlast]
  | raised _ _ hs | crash hs =>
    have hswap := h.swap.step hs
    cases hs
    exact ⟨hswap, h.written, rfl⟩

/-- After any run the state file is what the last completed save wrote. -/
theorem Sound.run (h : m.Sound rt last) (hrun : Run (Step rt) m es m') :
    m'.Sound rt (lastSave last es) ∧ .corrupt ∉ es := by
  induction hrun generalizing last with
  | nil => exact ⟨h, List.not_mem_nil⟩
  | cons hstep _ ih =>
    obtain ⟨hrest, hnot⟩ := ih (h.step hstep)
    refine ⟨hrest, fun hmem => ?_⟩
    rcases List.mem_cons.mp hmem with rfl | hmem
    · exact h.ne_corrupt hstep rfl
    · exact hnot hmem

/-! ## One save at a time -/

/-- No other record is being saved. -/
def Only (data : StoredData fl) : Task fl → Prop
  | .saving other _ _ => other = data
  | _ => True

theorem only_of_begins {data : StoredData fl} (hstep : Step rt m e m')
    (h : e.begins = some data) : Only data m'.task ∧ ∀ last, e.result last = last := by
  cases hstep with
  | save => exact ⟨Option.some.inj h, fun _ => rfl⟩
  | missing => exact ⟨Option.some.inj h, fun _ => rfl⟩
  | corrupt => exact ⟨Option.some.inj h, fun _ => rfl⟩
  | _ => cases h

/-- Until another save begins, only this record is written. -/
theorem Sound.step_only (h : m.Sound rt last) {data : StoredData fl} (honly : Only data m.task)
    (hstep : Step rt m e m') (hbegins : e.begins = none) : Only data m'.task ∧
      ((∀ before, e.result before = before) ∨
        ∃ content, (∀ before, e.result before = some content) ∧ Written rt data content) := by
  have htask : ∀ {p : Process fl} {t : Task fl}, m.process = some p → p.task = t →
      Only data t := by
    intro p t hp ht
    rw [← ht, ← task_of_process hp]
    exact honly
  cases hstep with
  | save => cases hbegins
  | missing => cases hbegins
  | corrupt => cases hbegins
  | boot hp => exact ⟨trivial, .inl fun _ => rfl⟩
  | load hp ht => exact ⟨trivial, .inl fun _ => rfl⟩
  | ensureLoad hp ht => exact ⟨trivial, .inl fun _ => rfl⟩
  | read hp ht hf hvalue hread hmac => exact ⟨trivial, .inl fun _ => rfl⟩
  | ensureSave hp ht =>
    have hdata : _ = data := htask hp ht
    exact ⟨hdata, .inl fun _ => rfl⟩
  | sign hp ht hmac =>
    have hdata : _ = data := htask hp ht
    exact ⟨hdata, .inl fun _ => rfl⟩
  | create hp ht hd hs =>
    have hdata : _ = data := htask hp ht
    exact ⟨hdata, .inl fun _ => rfl⟩
  | write hp ht hs => exact ⟨honly, .inl fun _ => rfl⟩
  | sync hp ht hs => exact ⟨honly, .inl fun _ => rfl⟩
  | @replace p data' answer content swap hp ht hs =>
    have hdata : data' = data := htask hp ht
    obtain ⟨content', hcontent, hwritten⟩ := h.taskSound hp ht
    cases hs with
    | replace hstage hf =>
      rw [hstage] at hcontent
      obtain rfl : content = content' := Option.some.inj hcontent
      exact ⟨trivial, .inr ⟨content, fun _ => rfl, hdata ▸ hwritten⟩⟩
  | answer hp ht => exact ⟨trivial, .inl fun _ => rfl⟩
  | raised hp ht hs => exact ⟨trivial, .inl fun _ => rfl⟩
  | crash hs hc => exact ⟨trivial, .inl fun _ => rfl⟩

theorem Sound.run_only (h : m.Sound rt last) {data : StoredData fl} (honly : Only data m.task)
    (hrun : Run (Step rt) m es m') (hbegins : ∀ e ∈ es, e.begins = none)
    (before : Option Bytes) : lastSave before es = before ∨
      ∃ content, lastSave before es = some content ∧ Written rt data content := by
  induction hrun generalizing last before with
  | nil => exact .inl rfl
  | @cons m k m' e es hstep _ ih =>
    obtain ⟨he, hes⟩ := List.forall_mem_cons.mp hbegins
    obtain ⟨honly', hresult⟩ := h.step_only honly hstep he
    have hrest := ih (h.step hstep) honly' hes (e.result before)
    have hcons : lastSave before (e :: es) = lastSave (e.result before) es := rfl
    rw [hcons]
    rcases hrest with hsame | hwritten
    · rw [hsame]
      rcases hresult with hresult | ⟨content, hresult, hwritten⟩
      · exact .inl (hresult before)
      · exact .inr ⟨content, hresult before, hwritten⟩
    · exact .inr hwritten

/-! ## Leftovers -/

/-- With another temporary file, unless one is being written, the machine takes the same steps. -/
theorem step_sameButTemp {swap : Swap UInt8} (hsame : Swap.SameButTemp m.swap swap)
    (hstep : Step rt m e m') : ∃ swap',
      Step rt { m with swap := swap } e { m' with swap := swap' } ∧
      Swap.SameButTemp m'.swap swap' := by
  cases hstep with
  | boot hp => exact ⟨swap, .boot hp, hsame⟩
  | save hp ht data => exact ⟨swap, .save (m := { m with swap := swap }) hp ht data, hsame⟩
  | load hp ht => exact ⟨swap, .load hp ht, hsame⟩
  | ensureLoad hp ht => exact ⟨swap, .ensureLoad hp ht, hsame⟩
  | missing hp ht hf => exact ⟨swap, .missing hp ht (hsame.target.trans hf), hsame⟩
  | read hp ht hf hvalue hread hmac =>
    exact ⟨swap, .read hp ht (hsame.target.trans hf) hvalue hread hmac, hsame⟩
  | corrupt hp ht hf hread hs =>
    obtain ⟨swap', hs', hsame'⟩ := hsame.step hs
    exact ⟨swap', .corrupt hp ht (hsame.target.trans hf) hread hs', hsame'⟩
  | ensureSave hp ht => exact ⟨swap, .ensureSave hp ht, hsame⟩
  | sign hp ht hmac => exact ⟨swap, .sign hp ht hmac, hsame⟩
  | create hp ht hd hs =>
    obtain ⟨swap', hs', hsame'⟩ := hsame.step hs
    exact ⟨swap', .create hp ht hd hs', hsame'⟩
  | write hp ht hs =>
    obtain ⟨swap', hs', hsame'⟩ := hsame.step hs
    exact ⟨swap', .write hp ht hs', hsame'⟩
  | sync hp ht hs =>
    obtain ⟨swap', hs', hsame'⟩ := hsame.step hs
    exact ⟨swap', .sync hp ht hs', hsame'⟩
  | replace hp ht hs =>
    obtain ⟨swap', hs', hsame'⟩ := hsame.step hs
    exact ⟨swap', .replace hp ht hs', hsame'⟩
  | answer hp ht => exact ⟨swap, .answer hp ht, hsame⟩
  | raised hp ht hs =>
    obtain ⟨swap', hs', hsame'⟩ := hsame.step hs
    exact ⟨swap', .raised hp ht hs', hsame'⟩
  | crash hs hc =>
    obtain ⟨swap', hs', hsame'⟩ := hsame.step hs
    exact ⟨swap', .crash hs' hc, hsame'⟩

theorem run_withTemp (hidle : m.swap.stage = .idle) (hrun : Run (Step rt) m es m')
    (temp : Option (File UInt8)) :
    ∃ temp', Run (Step rt) (m.withTemp temp) es (m'.withTemp temp') := by
  obtain ⟨n, hn, swap, rfl, hsame⟩ := hrun.simulate
    (R := fun m n => ∃ swap, n = { m with swap := swap } ∧ Swap.SameButTemp m.swap swap)
    (fun m e m' n ⟨swap, hn, hsame⟩ hstep => by
      obtain ⟨swap', hstep', hsame'⟩ := step_sameButTemp hsame hstep
      exact ⟨_, hn ▸ hstep', swap', rfl, hsame'⟩)
    ⟨_, rfl, Swap.SameButTemp.of_idle hidle temp⟩
  refine ⟨swap.temp, ?_⟩
  have hswap : swap = { m'.swap with temp := swap.temp } := by
    obtain ⟨target, tmp, stage⟩ := swap
    rw [Swap.mk.injEq]
    exact ⟨hsame.target, rfl, hsame.stage⟩
  have hend : { m' with swap := swap } = m'.withTemp swap.temp := by
    conv_lhs => rw [hswap]
    rfl
  rw [← hend]
  exact hn

/-! ## The result -/

theorem AtRest.sound (h : m.AtRest rt) : m.Sound rt m.stateFile := by
  obtain ⟨hprocess, hstage, htarget⟩ := h
  have htask : m.task = .idle := by
    rw [Machine.task, hprocess]
    rfl
  refine ⟨⟨?_, ?_⟩, ?_, ?_⟩
  · rw [Machine.stateFile]
    cases hf : m.swap.target with
    | none => rfl
    | some f =>
      obtain ⟨hsynced, -⟩ := htarget f hf
      exact congrArg some (congrArg (File.mk f.content) hsynced)
  · rw [hstage]
    trivial
  · intro content hcontent
    obtain ⟨f, hf, rfl⟩ := Option.map_eq_some_iff.mp hcontent
    exact (htarget f hf).2
  · rw [htask]
    exact hstage

/-- A new process loads what the state file was written for. -/
theorem Written.loads (hprocess : m.process = none) {content : Bytes}
    (hcontent : m.stateFile = some content) {data : StoredData fl}
    (hwritten : Written rt data content) (env : CallEnv) : ∃ verified m'',
      Run (Step rt) m [.boot, .load, .ensureDir, .read env,
        .answer (.loaded data.config.sorted data.session.sorted verified)] m'' := by
  obtain ⟨f, hf, rfl⟩ := Option.map_eq_some_iff.mp hcontent
  obtain ⟨value, hvalue, hread⟩ := Option.bind_eq_some_iff.mp hwritten.readBytes
  obtain ⟨expected, key, secretFile, -, hmac⟩ :=
    calculateHmac_ok rt env value.members (m.manager {})
  let booted : Machine fl := { m with process := some ⟨none, .idle⟩ }
  let loading : Machine fl := { m with process := some ⟨none, .loading⟩ }
  let looking : Machine fl := { m with process := some ⟨none, .looking⟩, dir := true }
  have hboot : Step rt m .boot booted := .boot hprocess
  have hload : Step rt booted .load loading := .load (p := ⟨none, .idle⟩) rfl rfl
  have hensure : Step rt loading .ensureDir looking :=
    .ensureLoad (p := ⟨none, .loading⟩) rfl rfl
  have hlook : Step rt looking (.read env) _ :=
    .read (p := ⟨none, .looking⟩) rfl rfl hf hvalue hread hmac
  exact ⟨verified value expected, _, .cons hboot (.cons hload (.cons hensure (.cons hlook
    (.single (.answer rfl rfl)))))⟩

/-- In every run of saves and loads, with crashes at any of their steps, from a machine at rest the
state file is what the last completed save wrote: after an interruption that is what it was before,
or what the interrupted save writes. Every `load` can read it, and leftovers of interrupted saves
make no difference. -/
theorem crash_atomic (h : m.AtRest rt) (hrun : Run (Step rt) m es m') :
    CrashAtomic rt m es m' := by
  obtain ⟨hsound, hnot⟩ := h.sound.run hrun
  refine ⟨hsound.stateFile, ?_, hnot, ?_, ?_, ?_⟩
  · rintro before e data rest rfl hbegins hrest
    obtain ⟨k, hbefore, hafter⟩ := hrun.split
    have hk := (h.sound.run hbefore).1
    cases hafter with
    | cons hstep hafter =>
      obtain ⟨honly, hresult⟩ := only_of_begins hstep hbegins
      have hlast : lastSave m.stateFile (before ++ e :: rest) =
          lastSave (lastSave m.stateFile before) rest := by
        simp only [lastSave, List.foldl_append, List.foldl_cons, hresult]
      rw [hsound.stateFile, hlast]
      exact (hk.step hstep).run_only honly hafter hrest _
  · intro content hcontent
    rw [hsound.stateFile] at hcontent
    exact hsound.written content hcontent
  · intro content data env hprocess hcontent hwritten
    exact hwritten.loads hprocess hcontent env
  · rintro before k after temp rfl hbefore hidle hafter
    have htask := (h.sound.run hbefore).1.task
    rw [hidle] at htask
    exact run_withTemp htask hafter temp

/-! ## Two saves, the first one interrupted -/

/-- A save of a new process that nothing interrupts. -/
def saveEvents (env : CallEnv) (data : StoredData fl) (content : Bytes) : List (DiskEvent fl) :=
  [.boot, .save data, .ensureDir, .sign env, .create, .write content, .sync, .replace content,
    .answer .saved]

theorem run_saveEvents (rt : Runtime) (hprocess : m.process = none) (hstage : m.swap.stage = .idle)
    (env : CallEnv) (data : StoredData fl) : ∃ content m',
      Run (Step rt) m (saveEvents env data content) m' ∧ Written rt data content := by
  obtain ⟨signature, key, secretFile, -, hmac⟩ := calculateHmac_ok rt env
    (rawMembers data.config data.session data.hmacSignature) (m.manager {})
  have hwhole : Stage.writing (writtenBytes data signature) (writtenBytes data signature) =
      .writing (writtenBytes data signature) (writtenBytes data signature ++ []) := by
    rw [List.append_nil]
  have hsigned : Run (Step rt) m [.boot, .save data, .ensureDir, .sign env] _ :=
    .cons (.boot hprocess) (.cons (.save (p := {}) rfl rfl data)
      (.cons (.ensureSave (p := ⟨none, .saving data .called .saved⟩) rfl rfl)
        (.single (.sign (p := ⟨none, .saving data .ensured .saved⟩) rfl rfl hmac))))
  let signed : Process fl :=
    ⟨some key, .saving data (.signed (writtenBytes data signature)) .saved⟩
  let opened : Process fl := ⟨some key, .saving data .opened .saved⟩
  let answering : Process fl := ⟨some key, .answering .saved⟩
  let saved : Machine fl := ⟨true, ⟨some ⟨[] ++ writtenBytes data signature, true⟩, none, .idle⟩,
    secretFile, m.corruptFile, some ⟨some key, .idle⟩⟩
  refine ⟨writtenBytes data signature, saved, hsigned.append ?_, written_of_calculateHmac hmac⟩
  exact .cons (.create (p := signed) rfl rfl rfl (.create hstage _))
    (.cons (.write (p := opened) rfl rfl (.write hwhole rfl))
      (.cons (.sync (p := opened) rfl rfl (.sync rfl rfl))
        (.cons (.replace (p := opened) rfl rfl (.replace rfl rfl))
          (.single (.answer (p := answering) rfl rfl)))))

/-- A machine that has never run the program. -/
def fresh (fl : Floats) : Machine fl := ⟨false, ⟨none, none, .idle⟩, none, none, none⟩

/-- What the defaults are written as with a key of sevens. -/
def defaultBytes (fl : Floats) : Bytes := writtenBytes (.default fl) (hexdigest sevens.val)

/-- The first save crashes after a hundred bytes. -/
def firstSave (fl : Floats) : List (DiskEvent fl) := [.boot, .save (.default fl), .ensureDir,
  .sign (envWithKey sevens), .create, .write ((defaultBytes fl).take 100), .crash]

theorem run_firstSave (fl : Floats) : ∃ m', Run (Step asciiRuntime) (fresh fl) (firstSave fl) m' ∧
    m'.process = none ∧ m'.swap.stage = .idle := by
  let signed : Process fl :=
    ⟨some sevens.val, .saving (.default fl) (.signed (defaultBytes fl)) .saved⟩
  let opened : Process fl := ⟨some sevens.val, .saving (.default fl) .opened .saved⟩
  have hsplit : Stage.writing (defaultBytes fl) (defaultBytes fl) = .writing (defaultBytes fl)
      ((defaultBytes fl).take 100 ++ (defaultBytes fl).drop 100) := by
    rw [List.take_append_drop]
  let cut : File UInt8 := ⟨(defaultBytes fl).take 100, false⟩
  let crashed : Machine fl := ⟨true, ⟨none, some cut, .idle⟩, some sevens.val, none, none⟩
  refine ⟨crashed, ?_, rfl, rfl⟩
  exact .cons (.boot rfl) (.cons (.save (p := {}) rfl rfl _)
    (.cons (.ensureSave (p := ⟨none, .saving (.default fl) .called .saved⟩) rfl rfl)
    (.cons (.sign (p := ⟨none, .saving (.default fl) .ensured .saved⟩) rfl rfl rfl)
    (.cons (.create (p := signed) rfl rfl rfl (.create rfl _))
    (.cons (.write (p := opened) rfl rfl (.write hsplit rfl))
    (.single (.crash (.crash (.kept _) (.kept _)) (.kept _))))))))

def lockedRecord (fl : Floats) : StoredData fl :=
  .ofTyped lockedData (AppConfig.toJson_held _ (by simp [lockedData, Json.HeldItems, Json.Held]))

/-- Behind the first save that crashes, a second one is completed, and survives another crash. -/
theorem crash_atomic_firstSave : ∃ content m',
    let es := firstSave default ++ (saveEvents (envWithKey sevens) (lockedRecord default) content ++
      [.crash])
    Run (Step asciiRuntime) (fresh default) es m' ∧
      CrashAtomic asciiRuntime (fresh default) es m' ∧ m'.stateFile = some content ∧
      ∃ verified m'', Run (Step asciiRuntime) m' [.boot, .load, .ensureDir,
        .read (envWithKey sevens), .answer (.loaded (lockedRecord default).config.sorted
          (lockedRecord default).session.sorted verified)] m'' := by
  obtain ⟨m₁, hfirst, hprocess, hstage⟩ := run_firstSave default
  obtain ⟨content, m₂, hsecond, hwritten⟩ := run_saveEvents asciiRuntime hprocess hstage
    (envWithKey sevens) (lockedRecord default)
  have hcrash : Step asciiRuntime m₂ .crash ⟨m₂.dir, ⟨m₂.swap.target, m₂.swap.temp, .idle⟩,
    m₂.secretFile, m₂.corruptFile, none⟩ := .crash (.crash (.kept _) (.kept _)) (.kept _)
  have hrun := hfirst.append (hsecond.append (.single hcrash))
  have hrest : (fresh default).AtRest asciiRuntime := ⟨rfl, rfl, by simp [fresh]⟩
  have hatomic : CrashAtomic asciiRuntime _ _ _ := crash_atomic hrest hrun
  refine ⟨content, _, hrun, hatomic, hatomic.completed, ?_⟩
  exact hatomic.loads content _ (envWithKey sevens) rfl hatomic.completed hwritten

end Machine

end FocusGuard
