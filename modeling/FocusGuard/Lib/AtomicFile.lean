import FocusGuard.Lib.Runs

/-!
# Replacing a file through a temporary one

A file is replaced by writing the new content to a temporary file, piece by piece, flushing that to
the disk and renaming it. A writer may give up and the machine may crash between any two of these
steps. What a file holds beyond what has reached the disk may come out of a crash as anything.

## Main definitions

* `Swap.Step`: the steps of a writer, and the crash.
* `Swap.Sound`: the target is one whole content, and it has reached the disk.

## Main results

* `Swap.Sound.step`, `Swap.Sound.run`: the target is the content of the last replacement.
* `Swap.SameButTemp.step`: a leftover temporary file is of no account.
-/

/-- A file: what a reader sees, and whether that has reached the disk. -/
structure File (β : Type) where
  content : List β
  synced : Bool

/-- What a crash may leave of a file, or of its absence. -/
inductive File.AfterCrash {β : Type} : Option (File β) → Option (File β) → Prop where
  | kept (f : Option (File β)) : AfterCrash f f
  | lost {f : File β} (h : f.synced = false) (f' : Option (File β)) : AfterCrash (some f) f'

/-- How far the writer has come. -/
inductive Stage (β : Type) where
  | idle
  /-- `rest` is what of the content is still to be written. -/
  | writing (content rest : List β)
  | synced (content : List β)

/-- The content that is being written. -/
def Stage.content? {β : Type} : Stage β → Option (List β)
  | .idle => none
  | .writing content _ => some content
  | .synced content => some content

structure Swap (β : Type) where
  target : Option (File β)
  temp : Option (File β)
  stage : Stage β

namespace Swap

variable {β : Type}

/-- `remove` takes the target away; `abandon` is a writer that gives up. -/
inductive Op (β : Type) where
  | create (content : List β)
  | write (piece : List β)
  | sync
  | replace (content : List β)
  | remove
  | abandon
  | crash

inductive Step : Swap β → Op β → Swap β → Prop where
  /-- The temporary file is created, or truncated where there is one. -/
  | create {s : Swap β} (h : s.stage = .idle) (content : List β) :
      Step s (.create content)
        { s with temp := some ⟨[], false⟩, stage := .writing content content }
  | write {s : Swap β} {f : File β} {content piece rest : List β}
      (h : s.stage = .writing content (piece ++ rest)) (hf : s.temp = some f) :
      Step s (.write piece)
        { s with temp := some ⟨f.content ++ piece, false⟩, stage := .writing content rest }
  | sync {s : Swap β} {f : File β} {content : List β}
      (h : s.stage = .writing content []) (hf : s.temp = some f) :
      Step s .sync { s with temp := some { f with synced := true }, stage := .synced content }
  | replace {s : Swap β} {f : File β} {content : List β}
      (h : s.stage = .synced content) (hf : s.temp = some f) :
      Step s (.replace content) ⟨some f, none, .idle⟩
  | remove (s : Swap β) : Step s .remove { s with target := none }
  | abandon (s : Swap β) : Step s .abandon { s with stage := .idle }
  | crash {s : Swap β} {target temp : Option (File β)}
      (ht : File.AfterCrash s.target target) (htemp : File.AfterCrash s.temp temp) :
      Step s .crash ⟨target, temp, .idle⟩

/-! ## The target -/

/-- The content that a step leaves in the target. -/
def Op.result (last : Option (List β)) : Op β → Option (List β)
  | .replace content => some content
  | .remove => none
  | _ => last

/-- What the temporary file holds while it is being written. -/
def TempSound (temp : Option (File β)) : Stage β → Prop
  | .idle => True
  | .writing content rest => ∃ f, temp = some f ∧ f.content ++ rest = content
  | .synced content => temp = some ⟨content, true⟩

/-- The target is this content as a whole, and has reached the disk. -/
structure Sound (last : Option (List β)) (s : Swap β) : Prop where
  target : s.target = last.map fun content => ⟨content, true⟩
  temp : TempSound s.temp s.stage

variable {s s' t : Swap β} {op : Op β} {ops : List (Op β)} {last : Option (List β)}

theorem afterCrash_synced {content : Option (List β)} {f : Option (File β)}
    (h : File.AfterCrash (content.map fun content => ⟨content, true⟩) f) :
    f = content.map fun content => ⟨content, true⟩ := by
  cases content with
  | none =>
    cases h
    rfl
  | some content =>
    cases h with
    | kept => rfl
    | lost hlost => cases hlost

theorem Sound.step (h : s.Sound last) (hstep : Step s op t) : t.Sound (op.result last) := by
  obtain ⟨htarget, htemp⟩ := h
  cases hstep with
  | create hstage content => exact ⟨htarget, _, rfl, rfl⟩
  | @write f content piece rest hstage hf =>
    rw [hstage] at htemp
    obtain ⟨g, hg, hcontent⟩ := htemp
    obtain rfl : f = g := Option.some.inj (hf.symm.trans hg)
    exact ⟨htarget, _, rfl, by rw [List.append_assoc]; exact hcontent⟩
  | @sync f content hstage hf =>
    rw [hstage] at htemp
    obtain ⟨g, hg, hcontent⟩ := htemp
    obtain rfl : f = g := Option.some.inj (hf.symm.trans hg)
    rw [List.append_nil] at hcontent
    exact ⟨htarget, by rw [← hcontent]; rfl⟩
  | @replace f content hstage hf =>
    rw [hstage] at htemp
    obtain rfl : f = ⟨content, true⟩ := Option.some.inj (hf.symm.trans htemp)
    exact ⟨rfl, trivial⟩
  | remove => exact ⟨rfl, htemp⟩
  | abandon => exact ⟨htarget, trivial⟩
  | crash ht =>
    rw [htarget] at ht
    exact ⟨afterCrash_synced ht, trivial⟩

/-- After any run the target is the content of the last replacement in it. -/
theorem Sound.run (h : s.Sound last) (hrun : Run Step s ops t) :
    t.Sound (ops.foldl Op.result last) := by
  induction hrun generalizing last with
  | nil => exact h
  | cons hstep _ ih => exact ih (h.step hstep)

/-! ## Leftovers -/

/-- The same but for the temporary file, unless that is being written. -/
structure SameButTemp (s s' : Swap β) : Prop where
  target : s'.target = s.target
  stage : s'.stage = s.stage
  temp : s.stage ≠ .idle → s'.temp = s.temp

theorem SameButTemp.of_idle (h : s.stage = .idle) (temp : Option (File β)) :
    SameButTemp s { s with temp := temp } :=
  ⟨rfl, rfl, fun hne => absurd h hne⟩

/-- Whatever a writer does, it could have done with another leftover, to the same effect. -/
theorem SameButTemp.step (h : SameButTemp s s') (hstep : Step s op t) :
    ∃ t', Step s' op t' ∧ SameButTemp t t' := by
  obtain ⟨htarget, hstage', htemp⟩ := h
  cases hstep with
  | create hstage content =>
    exact ⟨_, .create (hstage'.trans hstage) content, htarget, rfl, fun _ => rfl⟩
  | write hstage hf =>
    have heq := htemp (by simp [hstage])
    exact ⟨_, .write (hstage'.trans hstage) (heq.trans hf), htarget, rfl, fun _ => rfl⟩
  | sync hstage hf =>
    have heq := htemp (by simp [hstage])
    exact ⟨_, .sync (hstage'.trans hstage) (heq.trans hf), htarget, rfl, fun _ => rfl⟩
  | replace hstage hf =>
    have heq := htemp (by simp [hstage])
    exact ⟨_, .replace (hstage'.trans hstage) (heq.trans hf), rfl, rfl, fun _ => rfl⟩
  | remove => exact ⟨_, .remove s', rfl, hstage', htemp⟩
  | abandon => exact ⟨_, .abandon s', htarget, rfl, fun hne => absurd rfl hne⟩
  | @crash target temp ht _ =>
    exact ⟨⟨target, s'.temp, .idle⟩, .crash (htarget ▸ ht) (.kept _), rfl, rfl,
      fun hne => absurd rfl hne⟩

end Swap
