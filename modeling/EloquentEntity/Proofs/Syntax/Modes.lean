import EloquentEntity.Proofs.Syntax.Scanning

/-!
The modes that the lexer can stand in.

Strings with expressions stand open one in the other, each with blocks above it, and the index and
member access of a variable stand right above a string. A token opens or closes one string at most.
-/

namespace EloquentEntity.Syntax

variable {s : List Char} {q : Quote} {modes : List Mode} {m : Mode} {k : Scan}

/-- Modes that the lexer comes to from none. -/
inductive Nested : List Mode → Prop
  | nil : Nested []
  | block {modes : List Mode} : Nested modes → Nested (.block :: modes)
  | template {q : Quote} {modes : List Mode} :
      q.Proper → Nested modes → Nested (.template q :: modes)
  | inside {m : Mode} {q : Quote} {modes : List Mode} :
      m ∈ [.afterVariable, .index, .member] → Nested (.template q :: modes) →
      Nested (m :: .template q :: modes)

def Mode.isTemplate : Mode → Bool
  | .template _ => true
  | _ => false

def depth (modes : List Mode) : Nat := modes.countP Mode.isTemplate

namespace Nested

lemma tail (h : Nested (m :: modes)) : Nested modes := by
  cases h with
  | block h | template _ h | inside _ h => exact h

lemma proper (h : Nested modes) (hq : .template q ∈ modes) : q.Proper := by
  induction h with
  | nil => cases hq
  | block _ ih => exact ih (by simpa using hq)
  | template hproper _ ih =>
    rcases List.mem_cons.mp hq with heq | hq
    · cases heq
      exact hproper
    · exact ih hq
  | inside hm _ ih =>
    rcases List.mem_cons.mp hq with rfl | hq
    · simp at hm
    · exact ih hq

lemma inBlocks (h : Nested modes) (hdepth : depth modes = 0) : InBlocks modes := by
  have htemplate (q : Quote) (modes : List Mode) : depth (.template q :: modes) ≠ 0 := by
    simp [depth, Mode.isTemplate]
  induction h with
  | nil => simp [InBlocks]
  | block _ ih =>
    have := ih (by simpa [depth, Mode.isTemplate] using hdepth)
    simpa [InBlocks] using this
  | template => exact absurd hdepth (htemplate _ _)
  | @inside m q modes hm h =>
    refine absurd ?_ (htemplate q modes)
    rw [depth, List.countP_cons] at hdepth
    exact Nat.eq_zero_of_add_eq_zero_right hdepth

end Nested

@[simp]
lemma depth_nil : depth [] = 0 := rfl

@[simp]
lemma depth_template (q : Quote) (modes : List Mode) :
    depth (.template q :: modes) = depth modes + 1 := List.countP_cons_of_pos rfl

lemma depth_cons (h : m.isTemplate = false) (modes : List Mode) :
    depth (m :: modes) = depth modes :=
  List.countP_cons_of_neg (by simp [h])

structure Step (modes : List Mode) (k : Scan) : Prop where
  nested : Nested k.modes
  depth_eq : depth k.modes + (if k.kind = .templateClose then 1 else 0) =
    depth modes + (if k.kind = .templateOpen then 1 else 0)

namespace Step

lemma of_depth (h : Nested k.modes) (hdepth : depth k.modes = depth modes)
    (hopen : k.kind ≠ .templateOpen) (hclose : k.kind ≠ .templateClose) : Step modes k :=
  ⟨h, by rw [if_neg hopen, if_neg hclose, hdepth]⟩

lemma same (h : Nested modes) {kind : TokenKind} (hopen : kind ≠ .templateOpen)
    (hclose : kind ≠ .templateClose) (n : Nat) : Step modes ⟨kind, n, modes⟩ :=
  of_depth h rfl hopen hclose

lemma template (h : Nested modes) (hq : q.Proper) (start : Nat) :
    Step modes ⟨.templateOpen, start, .template q :: modes⟩ :=
  ⟨.template hq h, by rw [if_pos rfl, if_neg (by simp), depth_template]⟩

/-- A token that opens a mode that is no string. -/
lemma opened (h : Nested (m :: modes)) (hm : m.isTemplate = false) {kind : TokenKind}
    (hopen : kind ≠ .templateOpen) (hclose : kind ≠ .templateClose) (n : Nat) :
    Step modes ⟨kind, n, m :: modes⟩ := of_depth h (depth_cons hm modes) hopen hclose

/-- A symbol that closes a mode if that is the last one. -/
lemma closed (h : Nested modes) (hm : m.isTemplate = false) (n : Nat) :
    Step modes ⟨.symbol, n, if modes.head? = some m then modes.tail else modes⟩ := by
  split
  · next hhead =>
    obtain ⟨modes, rfl⟩ := List.head?_eq_some_iff.mp hhead
    exact of_depth h.tail (depth_cons hm modes).symm (by simp) (by simp)
  · exact same h (by simp) (by simp) n

end Step

namespace Nested

lemma scanSymbol (h : Nested modes) (s : List Char) : Step modes (Syntax.scanSymbol modes s) := by
  rw [Syntax.scanSymbol.eq_def]
  split
  · exact .same h (by simp) (by simp) _
  · split
    · exact .same h (by simp) (by simp) _
    · exact .opened h.block rfl (by simp) (by simp) _
    · exact .closed h rfl 1
    · exact .closed h rfl 1
    · split <;> exact .same h (by simp) (by simp) _
    · exact .same h (by simp) (by simp) _

lemma scanTemplate (h : Nested modes) (hq : q.Proper) {plain : TokenKind}
    (hopen : plain ≠ .templateOpen) (hclose : plain ≠ .templateClose) (start : Nat)
    (s : List Char) : Step modes (Syntax.scanTemplate modes q plain start s) := by
  rw [Syntax.scanTemplate.eq_def]
  dsimp only
  split
  · exact .same h hopen hclose _
  · split
    · exact .same h (by simp) (by simp) _
    · exact .template h hq start

lemma scanString (h : Nested modes) (mark : Nat) (s : List Char) :
    ∀ k ∈ Syntax.scanString modes mark s, Step modes k := by
  intro k hk
  rw [Option.mem_def, Syntax.scanString] at hk
  split at hk
  · split at hk <;> cases hk <;> exact .same h (by simp) (by simp) _
  · cases hk
    exact h.scanTemplate (q := .mark '"') (.inl rfl) (by simp) (by simp) _ _
  · cases hstart : heredocStart (s.drop mark) with
    | none =>
      rw [scanHeredoc_none hstart] at hk
      cases hk
    | some first =>
      obtain ⟨n, l, isNowdoc⟩ := first
      cases isNowdoc with
      | true =>
        rw [scanHeredoc_nowdoc hstart] at hk
        split at hk <;> cases hk <;> exact .same h (by simp) (by simp) _
      | false =>
        rw [scanHeredoc_heredoc hstart] at hk
        cases hk
        exact h.scanTemplate (q := .heredoc l) (word_of_heredocStart hstart) (by simp) (by simp) _ _
  · cases hk

lemma scanCode (h : Nested modes) (s : List Char) : Step modes (Syntax.scanCode modes s) := by
  have hstring (mark : Nat) (s : List Char) {k : Scan} (hk : Step modes k) :
      Step modes ((Syntax.scanString modes mark s).getD k) := by
    cases hx : Syntax.scanString modes mark s with
    | none => exact hk
    | some x => exact h.scanString mark s x hx
  cases s with
  | nil => exact .same h (by simp) (by simp) _
  | cons c r =>
    rw [Syntax.scanCode]
    split
    · rw [scanWord]
      split
      · exact hstring 1 _ (.same h (by simp) (by simp) _)
      · exact .same h (by simp) (by simp) _
    split
    · exact .same h (by simp) (by simp) _
    split
    · exact .same h (by simp) (by simp) _
    split
    · rw [scanCommand]
      split
      · exact .same h (by simp) (by simp) _
      · exact .template h (q := .mark '\x60') (.inr rfl) 1
    · exact hstring 0 _ (h.scanSymbol _)

lemma scanInside (h : Nested (.template q :: modes)) (s : List Char) :
    Step (.template q :: modes) (Syntax.scanInside (.template q :: modes) q s) := by
  rw [Syntax.scanInside.eq_def]
  split
  · refine ⟨h.tail, ?_⟩
    rw [if_pos rfl, if_neg (by simp), depth_template]
    rfl
  · split
    · exact .same h (by simp) (by simp) _
    · exact .opened h.block rfl (by simp) (by simp) _
    · exact .opened h.block rfl (by simp) (by simp) _
    · split
      · exact .opened (.inside (by simp) h) rfl (by simp) (by simp) _
      · exact .same h (by simp) (by simp) _
    · exact .same h (by simp) (by simp) _

lemma variableStep (h : Nested (.template q :: modes)) (s : List Char) :
    ∀ k ∈ Syntax.variableStep (.template q :: modes) s, Step (.template q :: modes) k := by
  intro k hk
  rw [Option.mem_def, Syntax.variableStep.eq_def] at hk
  split at hk
  · cases hk
    exact .opened (.inside (by simp) h) rfl (by simp) (by simp) _
  · split at hk <;> cases hk
    exact .opened (.inside (by simp) h) rfl (by simp) (by simp) _
  · split at hk <;> cases hk
    exact .opened (.inside (by simp) h) rfl (by simp) (by simp) _
  · cases hk

/-- **A token keeps the modes nested.** -/
lemma scan (h : Nested modes) (s : List Char) : Step modes (Syntax.scan modes s) := by
  cases h with
  | nil => exact Nested.nil.scanCode s
  | block h => exact h.block.scanCode s
  | template hq h => exact (Nested.template hq h).scanInside s
  | @inside m q modes hm h =>
    simp only [List.mem_cons, List.not_mem_nil, or_false] at hm
    obtain rfl | rfl | rfl := hm
    · have hstep : Step (.template q :: modes)
          (Syntax.scan (.afterVariable :: .template q :: modes) s) := by
        rw [scan_afterVariable]
        cases hk : Syntax.variableStep (.template q :: modes) s with
        | none => exact h.scanInside s
        | some k => exact h.variableStep s k hk
      exact ⟨hstep.nested, by rw [hstep.depth_eq, depth_cons (m := .afterVariable) rfl]⟩
    · exact (Nested.inside (by simp) h).scanCode s
    · exact .of_depth h (depth_cons (m := .member) rfl _).symm (by simp [Syntax.scan])
        (by simp [Syntax.scan])

end Nested

end EloquentEntity.Syntax
