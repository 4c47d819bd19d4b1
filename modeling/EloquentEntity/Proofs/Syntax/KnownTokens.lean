import EloquentEntity.Proofs.Syntax.Names

/-!
The tokens of a source that parses.

The grammar reads no character that starts no token, and no mark of a heredoc: where such a mark
stands, a heredoc has been read.
-/

namespace EloquentEntity.Syntax

open Syntax.Tree

/-- No mark of a heredoc, and nothing that the lexer does not know. -/
def Token.IsKnown (t : Token) : Prop :=
  t.kind ≠ .unknown ∧ ¬ (t.kind = .symbol ∧ t.text = "<<<".toList)

/-- No lexeme that fits is unknown or the mark of a heredoc. -/
def Pattern.isKnown : Pattern → Bool
  | .kind k => k != .unknown && k != .symbol
  | .symbol s => s != "<<<"
  | .afterTag => false
  | _ => true

lemma Pattern.known_of_accepts {p : Pattern} {t : Token} (hp : p.isKnown = true)
    (h : p.accepts t.lexeme = true) : t.IsKnown := by
  have hkind : t.lexeme.kind = t.kind := rfl
  have htext : t.lexeme.text = t.text := rfl
  cases p with
  | kind k =>
    simp only [isKnown, Bool.and_eq_true, bne_iff_ne] at hp
    simp only [accepts, beq_iff_eq, hkind] at h
    exact ⟨h ▸ hp.1, fun hmark => hp.2 (h ▸ hmark.1)⟩
  | symbol s =>
    simp only [isKnown, bne_iff_ne] at hp
    simp only [accepts, Bool.and_eq_true, beq_iff_eq, hkind, htext] at h
    exact ⟨by rw [h.1]; simp, fun hmark => hp (String.toList_inj.mp (h.2 ▸ hmark.2))⟩
  | afterTag => cases hp
  | keyword w | exactly w | oneOf ws | noneOf ws =>
    simp only [accepts, Bool.and_eq_true, beq_iff_eq, hkind] at h
    exact ⟨by rw [h.1]; simp, fun hmark => by rw [h.1] at hmark; cases hmark.1⟩

/-- All tokens that the rule reads fit patterns that `ok` accepts. -/
def Rule.readsOnly {σ : Type} (ok : Pattern → Bool) : Rule σ → Bool
  | .token p => ok p
  | .seq a b | .alt a b => a.readsOnly ok && b.readsOnly ok
  | .many a | .node _ a | .several _ a => a.readsOnly ok
  | .grow a next => a.readsOnly ok && Kind.all.all fun k => (next k).readsOnly ok
  | .growFrom _ _ => false
  | _ => true

section

variable {σ : Type} {grammar : σ → Rule σ} {ok : Pattern → Bool} {a : Rule σ} {ts ts' : List Token}
  {us : List Tree} {source : String} {root : Tree}

inductive Rule.ReadsOnly (ok : Pattern → Bool) : Rule σ → Prop
  | fresh {a : Rule σ} : a.readsOnly ok = true → ReadsOnly ok a
  | begun {t : Tree} {next : Kind → Rule σ} :
      (∀ k, (next k).readsOnly ok = true) → ReadsOnly ok (.growFrom t next)

lemma Rule.readsOnly_seq {b : Rule σ} (h : (seq a b).readsOnly ok = true) :
    a.readsOnly ok = true ∧ b.readsOnly ok = true := by
  simpa only [readsOnly, Bool.and_eq_true] using h

lemma Derives.readsOnly (hg : ∀ s, (grammar s).readsOnly ok = true)
    (h : Derives grammar a ts us ts') (ha : a.ReadsOnly ok) :
    ∃ read, ts = read ++ ts' ∧ ∀ t ∈ read, ∃ p, ok p = true ∧ p.accepts t.lexeme = true := by
  have append {ts ts₁ ts₂ : List Token}
      (h : ∃ read, ts = read ++ ts₁ ∧ ∀ t ∈ read, ∃ p, ok p = true ∧ p.accepts t.lexeme = true)
      (h₁ : ∃ read, ts₁ = read ++ ts₂ ∧ ∀ t ∈ read, ∃ p, ok p = true ∧ p.accepts t.lexeme = true) :
      ∃ read, ts = read ++ ts₂ ∧ ∀ t ∈ read, ∃ p, ok p = true ∧ p.accepts t.lexeme = true := by
    obtain ⟨read, rfl, hread⟩ := h
    obtain ⟨read₁, rfl, hread₁⟩ := h₁
    exact ⟨read ++ read₁, (List.append_assoc _ _ _).symm,
      List.forall_mem_append.mpr ⟨hread, hread₁⟩⟩
  -- Readings one after the other are put together by `append`.
  induction h with
  | empty | ahead | notAhead | stop | grown => exact ⟨[], rfl, by simp⟩
  | token hp =>
    obtain ⟨ha⟩ := ha
    exact ⟨[_], rfl, by simpa using ⟨_, ha, hp⟩⟩
  | seq _ _ iha ihb =>
    obtain ⟨ha⟩ := ha
    exact append (iha (.fresh (Rule.readsOnly_seq ha).1)) (ihb (.fresh (Rule.readsOnly_seq ha).2))
  | left _ ih =>
    obtain ⟨ha⟩ := ha
    exact ih (.fresh (Rule.readsOnly_seq ha).1)
  | right _ ih =>
    obtain ⟨ha⟩ := ha
    exact ih (.fresh (Rule.readsOnly_seq ha).2)
  | more _ _ iha ihb =>
    obtain ⟨ha⟩ := ha
    exact append (iha (.fresh ha)) (ihb (.fresh ha))
  | node _ ih | several _ ih =>
    obtain ⟨ha⟩ := ha
    exact ih (.fresh ha)
  | grow _ _ iha ihb =>
    obtain ⟨ha⟩ := ha
    simp only [Rule.readsOnly, Bool.and_eq_true, List.all_eq_true] at ha
    exact append (iha (.fresh ha.1)) (ihb (.begun fun k => ha.2 k k.mem_all))
  | growNone _ ih =>
    obtain ⟨ha⟩ := ha
    simp only [Rule.readsOnly, Bool.and_eq_true] at ha
    exact ih (.fresh ha.1)
  | growOn _ _ iha ihb =>
    cases ha with
    | fresh ha => cases ha
    | begun ha => exact append (iha (.fresh (ha _))) (ihb (.begun ha))
  | ref _ ih => exact ih (.fresh (hg _))

lemma Rules.readsOnly_grammar (s : RuleName) :
    (Rules.grammar s).readsOnly Pattern.isKnown = true := by cases s <;> decide +kernel

lemma isKnown_of_parse (h : parse source = some root) {t : Token} (ht : t ∈ tokens source) :
    t.IsKnown := by
  have hprogram : Rules.program.readsOnly Pattern.isKnown = true := by decide +kernel
  obtain ⟨read, hread, hall⟩ :=
    (derives_of_parse h).readsOnly Rules.readsOnly_grammar (.fresh hprogram)
  rw [hread, List.append_nil] at ht
  obtain ⟨p, hp, haccepts⟩ := hall t ht
  exact Pattern.known_of_accepts hp haccepts

end

end EloquentEntity.Syntax
