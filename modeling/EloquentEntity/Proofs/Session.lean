import EloquentEntity.Session
import Mathlib.Tactic.Common

/-!
Procedures that leave the files as they are or keep a property of them, and the parts of procedures
that succeed.
-/

namespace EloquentEntity.Procedure

variable {ε ε' α β : Type} {p : Procedure ε α} {f : α → Procedure ε β} {s s' : Session}

lemma on_bind_eq_ok {b : β} (h : (p >>= f).on s = (.ok b, s')) :
    ∃ a s₁, p.on s = (.ok a, s₁) ∧ (f a).on s₁ = (.ok b, s') := by
  rw [on_bind] at h
  rcases hp : p.on s with ⟨e | a, s₁⟩
  · simp [hp] at h
  · exact ⟨a, s₁, rfl, by simpa [hp] using h⟩

lemma on_mapError_eq_ok {g : ε → ε'} {a : α} (h : (mapError g p).on s = (.ok a, s')) :
    p.on s = (.ok a, s') := by
  rw [on_mapError] at h
  rcases hp : p.on s with ⟨e | b, s₁⟩ <;> rw [hp] at h <;> cases h
  rfl

lemma on_mapError_eq_error {g : ε → ε'} {e : ε'} (h : (mapError g p).on s = (.error e, s')) :
    ∃ e', p.on s = (.error e', s') ∧ e = g e' := by
  rw [on_mapError] at h
  rcases hp : p.on s with ⟨e' | b, s₁⟩ <;> rw [hp] at h <;> cases h
  exact ⟨e', rfl, rfl⟩

lemma on_bind_fst {p' : Procedure ε α} {f' : α → Procedure ε β} (hp : (p.on s).1 = (p'.on s').1)
    (hf : ∀ a, ((f a).on (p.on s).2).1 = ((f' a).on (p'.on s').2).1) :
    ((p >>= f).on s).1 = ((p' >>= f').on s').1 := by
  rw [on_bind, on_bind]
  rcases h : p.on s with ⟨r, s₁⟩
  rcases h' : p'.on s' with ⟨r', s₁'⟩
  obtain rfl : r = r' := by rwa [h, h'] at hp
  rw [h, h'] at hf
  cases r with
  | error e => rfl
  | ok a => exact hf a

lemma on_timed_fst {p' : Procedure ε α} (name : String) (h : (p.on s).1 = (p'.on s').1) :
    ((timed name p).on s).1 = ((timed name p').on s').1 := h

/-- Whatever comes of it, the files are as before. -/
def LeavesFiles (p : Procedure ε α) : Prop := ∀ s, (p.on s).2.files = s.files

namespace LeavesFiles

lemma bind (hp : LeavesFiles p) (hf : ∀ a, LeavesFiles (f a)) : LeavesFiles (p >>= f) := by
  intro s
  rw [on_bind]
  have := hp s
  rcases h : p.on s with ⟨e | a, s₁⟩
  · rwa [h] at this
  · rw [h] at this
    exact (hf a s₁).trans this

lemma pure (a : α) : LeavesFiles (Pure.pure a : Procedure ε α) := fun _ => rfl

lemma throw (e : ε) : LeavesFiles (MonadExcept.throw e : Procedure ε α) := fun _ => rfl

lemma noteAll (es : List LogEntry) : LeavesFiles (noteAll es : Procedure ε Unit) := fun _ => rfl

lemma note (e : LogEntry) : LeavesFiles (note e : Procedure ε Unit) := fun _ => rfl

lemma files : LeavesFiles (files : Procedure ε FileTree) := fun _ => rfl

lemma ofExcept (r : Except ε α) : LeavesFiles (ofExcept r) := by
  intro s
  rw [on_ofExcept]

lemma mapError (g : ε → ε') (hp : LeavesFiles p) : LeavesFiles (mapError g p) := hp

lemma timed (name : String) (hp : LeavesFiles p) : LeavesFiles (timed name p) := hp

lemma files_eq {s s' : Session} {r : Except ε α} (hp : LeavesFiles p) (h : p.on s = (r, s')) :
    s'.files = s.files := by
  rw [← hp s, h]

end LeavesFiles

/-- Whatever comes of it, a property of the files is kept. -/
def Keeps (I : FileTree → Prop) (p : Procedure ε α) : Prop := ∀ s, I s.files → I (p.on s).2.files

namespace Keeps

variable {I : FileTree → Prop}

lemma bind (hp : Keeps I p) (hf : ∀ a, Keeps I (f a)) : Keeps I (p >>= f) := by
  intro s hs
  rw [on_bind]
  have hs₁ := hp s hs
  rcases h : p.on s with ⟨e | a, s₁⟩
  · rwa [h] at hs₁
  · rw [h] at hs₁
    exact hf a s₁ hs₁

lemma mapError (g : ε → ε') (hp : Keeps I p) : Keeps I (mapError g p) := hp

lemma timed (name : String) (hp : Keeps I p) : Keeps I (timed name p) := hp

end Keeps

lemma LeavesFiles.keeps (hp : LeavesFiles p) (I : FileTree → Prop) : Keeps I p := by
  intro s hs
  rwa [hp s]

/-- What comes of it and the files after it depend on the files alone. -/
def Determined (p : Procedure ε α) : Prop :=
  ∀ s s' : Session, s'.files = s.files →
    (p.on s).1 = (p.on s').1 ∧ (p.on s').2.files = (p.on s).2.files

namespace Determined

lemma bind (hp : Determined p) (hf : ∀ a, Determined (f a)) : Determined (p >>= f) := by
  intro s s' hs
  obtain ⟨hresult, hfiles⟩ := hp s s' hs
  rw [on_bind, on_bind]
  rcases h : p.on s with ⟨r, s₁⟩
  rcases h' : p.on s' with ⟨r', s₁'⟩
  rw [h, h'] at hresult hfiles
  obtain rfl : r = r' := hresult
  cases r with
  | error e => exact ⟨rfl, hfiles⟩
  | ok a => exact hf a s₁ s₁' hfiles

lemma pure (a : α) : Determined (Pure.pure a : Procedure ε α) := fun _ _ hs => ⟨rfl, hs⟩

lemma throw (e : ε) : Determined (MonadExcept.throw e : Procedure ε α) := fun _ _ hs => ⟨rfl, hs⟩

lemma noteAll (es : List LogEntry) : Determined (noteAll es : Procedure ε Unit) :=
  fun _ _ hs => ⟨rfl, hs⟩

lemma note (e : LogEntry) : Determined (note e : Procedure ε Unit) := noteAll [e]

lemma files : Determined (files : Procedure ε FileTree) := fun s s' hs => ⟨by simp [hs], hs⟩

lemma change (g : FileTree → Except ε FileTree) : Determined (change g) := by
  intro s s' hs
  rw [on_change, on_change, hs]
  cases g s.files with
  | error e => exact ⟨rfl, hs⟩
  | ok t => exact ⟨rfl, rfl⟩

lemma ofExcept (r : Except ε α) : Determined (ofExcept r) := by
  intro s s' hs
  rw [on_ofExcept, on_ofExcept]
  exact ⟨rfl, hs⟩

lemma mapError (g : ε → ε') (hp : Determined p) : Determined (mapError g p) := by
  intro s s' hs
  obtain ⟨hresult, hfiles⟩ := hp s s' hs
  exact ⟨congrArg (Except.mapError g) hresult, hfiles⟩

lemma timed (name : String) (hp : Determined p) : Determined (timed name p) := hp

end Determined

/-! ### Two runs -/

/-- Where `p` succeeds on the files `t`, `p'` succeeds on the files `t'` with a result that is
related; both leave the files as they are. -/
def Follows (t t' : FileTree) (R : α → β → Prop) (p : Procedure ε α) (p' : Procedure ε β) : Prop :=
  ∀ (s s' : Session) (a : α) (s₁ : Session), s.files = t → s'.files = t' →
    p.on s = (.ok a, s₁) →
      s₁.files = t ∧ ∃ a' s₁', p'.on s' = (.ok a', s₁') ∧ R a a' ∧ s₁'.files = t'

namespace Follows

variable {γ δ : Type} {t t' : FileTree} {R : α → β → Prop} {S : γ → δ → Prop}

lemma pure {a : α} {b : β} (h : R a b) :
    Follows t t' R (Pure.pure a : Procedure ε α) (Pure.pure b) := by
  intro s s' a' s₁ hs hs' hp
  rw [on_pure, Prod.mk.injEq] at hp
  obtain ⟨ha, rfl⟩ := hp
  obtain rfl := Except.ok.inj ha
  exact ⟨hs, b, s', rfl, h, hs'⟩

lemma bind {p : Procedure ε α} {p' : Procedure ε β} {f : α → Procedure ε γ}
    {f' : β → Procedure ε δ}
    (hp : Follows t t' R p p') (hf : ∀ a b, R a b → Follows t t' S (f a) (f' b)) :
    Follows t t' S (p >>= f) (p' >>= f') := by
  intro s s' c s₂ hs hs' hc
  obtain ⟨a, s₁, ha, hc⟩ := on_bind_eq_ok hc
  obtain ⟨hs₁, b, s₁', hb, hab, hs₁'⟩ := hp _ _ _ _ hs hs' ha
  obtain ⟨hs₂, d, s₂', hd, hcd, hs₂'⟩ := hf a b hab _ _ _ _ hs₁ hs₁' hc
  exact ⟨hs₂, d, s₂', by rw [on_bind, hb]; exact hd, hcd, hs₂'⟩

lemma noteAll (es es' : List LogEntry) :
    Follows t t' Eq (noteAll es : Procedure ε Unit) (Procedure.noteAll es') := by
  intro s s' a s₁ hs hs' hp
  rw [on_noteAll, Prod.mk.injEq] at hp
  obtain ⟨-, rfl⟩ := hp
  exact ⟨hs, (), _, rfl, rfl, hs'⟩

lemma files :
    Follows t t' (fun u u' => u = t ∧ u' = t') (files : Procedure ε FileTree) files := by
  intro s s' u s₁ hs hs' hp
  rw [on_files, Prod.mk.injEq] at hp
  obtain ⟨hu, rfl⟩ := hp
  obtain rfl := Except.ok.inj hu
  exact ⟨hs, _, _, rfl, ⟨hs, hs'⟩, hs'⟩

lemma ofExcept {r : Except ε α} {r' : Except ε β} (h : ∀ a, r = .ok a → ∃ b, r' = .ok b ∧ R a b) :
    Follows t t' R (ofExcept r) (Procedure.ofExcept r') := by
  intro s s' a s₁ hs hs' hp
  rw [on_ofExcept, Prod.mk.injEq] at hp
  obtain ⟨ha, rfl⟩ := hp
  obtain ⟨b, hb, hab⟩ := h a ha
  exact ⟨hs, b, s', by rw [on_ofExcept, hb], hab, hs'⟩

lemma mapError {p : Procedure ε α} {p' : Procedure ε β} (g g' : ε → ε')
    (hp : Follows t t' R p p') : Follows t t' R (mapError g p) (Procedure.mapError g' p') := by
  intro s s' a s₁ hs hs' ha
  rcases h : p.on s with ⟨e | a', s₂⟩
  · simp [h, Except.mapError] at ha
  · obtain ⟨rfl, rfl⟩ : a' = a ∧ s₂ = s₁ := by simpa [h, Except.mapError] using ha
    obtain ⟨hs₁, b, s₁', hb, hab, hs₁'⟩ := hp _ _ _ _ hs hs' h
    exact ⟨hs₁, b, s₁', by rw [on_mapError, hb]; rfl, hab, hs₁'⟩

lemma timed {p : Procedure ε α} {p' : Procedure ε β} (name : String) (hp : Follows t t' R p p') :
    Follows t t' R (timed name p) (Procedure.timed name p') := by
  intro s s' a s₁ hs hs' ha
  rcases h : p.on s with ⟨e | a', s₂⟩
  · simp [h] at ha
  · obtain ⟨rfl, rfl⟩ : a' = a ∧ _ := by simpa [h] using ha
    obtain ⟨hs₁, b, s₁', hb, hab, hs₁'⟩ := hp _ _ _ _ hs hs' h
    exact ⟨hs₁, b, { s₁' with log := s₁'.log ++ [.took name] }, by rw [on_timed, hb], hab, hs₁'⟩

end Follows

end EloquentEntity.Procedure
