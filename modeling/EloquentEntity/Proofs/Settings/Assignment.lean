import EloquentEntity.Proofs.OrderedMap
import EloquentEntity.Proofs.Settings

/-!
Settings that are changed field by field.

Whether a raw value is accepted for a field, and what is then stored, depends on nothing but the
value. So settings always are what their raw values make them, whether those were given when the
settings were made or assigned afterwards, and in whatever order.
-/

namespace EloquentEntity

lemma unknownFields_eq_nil_iff {known : List String} {fields : List (String × Raw)} :
    unknownFields known fields = [] ↔ ∀ name ∈ fields.map Prod.fst, name ∈ known := by
  simp [unknownFields, List.filter_eq_nil_iff]

namespace Setting

lemma mem_all (field : Setting) : field ∈ all := by cases field <;> decide

lemma nodup_all : all.Nodup := by decide

end Setting

namespace Settings

variable {c c' d d' : Settings} {field field' : Setting} {r : Raw} {e : Issue}
  {fields : List (String × Raw)} {issues : List FieldIssue}

/-! ### One field -/

/-- The settings with one field as others have it. -/
def copy (c : Settings) (field : Setting) (d : Settings) : Settings :=
  match field with
  | .model => { c with model := d.model }
  | .namespaceName => { c with namespaceName := d.namespaceName }
  | .suffix => { c with suffix := d.suffix }
  | .resource => { c with resource := d.resource }
  | .force => { c with force := d.force }
  | .dryRun => { c with dryRun := d.dryRun }
  | .projectPath => { c with projectPath := d.projectPath }
  | .databaseUrl => { c with databaseUrl := d.databaseUrl }
  | .table => { c with table := d.table }

@[simp] lemma copy_self (c : Settings) (field : Setting) : c.copy field c = c := by
  cases field <;> rfl

@[simp] lemma copy_copy (c d d' : Settings) (field : Setting) :
    (c.copy field d).copy field d' = c.copy field d' := by
  cases field <;> rfl

@[simp] lemma copy_of_copy (c d d' : Settings) (field : Setting) :
    c.copy field (d.copy field d') = c.copy field d' := by
  cases field <;> rfl

lemma copy_of_copy_ne (h : field ≠ field') (c d d' : Settings) :
    c.copy field (d.copy field' d') = c.copy field d := by
  cases field <;> cases field' <;> first | rfl | exact absurd rfl h

lemma copy_comm (h : field ≠ field') (c d d' : Settings) :
    (c.copy field d).copy field' d' = (c.copy field' d').copy field d := by
  cases field <;> cases field' <;> first | rfl | exact absurd rfl h

lemma ext_copy (h : ∀ field, c.copy field d = c) : c = d := by
  have hm := congrArg model (h .model)
  have hn := congrArg namespaceName (h .namespaceName)
  have hs := congrArg suffix (h .suffix)
  have hr := congrArg resource (h .resource)
  have hf := congrArg force (h .force)
  have hdry := congrArg dryRun (h .dryRun)
  have hp := congrArg projectPath (h .projectPath)
  have hu := congrArg databaseUrl (h .databaseUrl)
  have ht := congrArg table (h .table)
  cases c; cases d
  simp_all [copy]

/-- A raw value is put into a field, or refused, whatever the fields hold. -/
lemma assign_eq (c d : Settings) (field : Setting) (r : Raw) :
    c.assign field r = (d.assign field r).map (c.copy field) := by
  change _ = c.copy field <$> d.assign field r
  cases field <;> simp only [assign, map_bind] <;> rfl

/-- What a field is given: settings that have it, or what is wrong with it. -/
def given (fields : List (String × Raw)) (field : Setting) : Except Issue Settings :=
  match fields.lookup field.key with
  | none => if field = .model then .error .required else .ok initial
  | some r => initial.assign field r

def issuesOf (fields : List (String × Raw)) (field : Setting) : List FieldIssue :=
  match given fields field with
  | .ok _ => []
  | .error e => [⟨[field.key], e⟩]

/-- A field that is as at the start is made what it is given. -/
lemma take_eq (hc : c.copy field initial = c) (issues : List FieldIssue) :
    take fields (c, issues) field =
      match given fields field with
      | .ok d => (c.copy field d, issues)
      | .error e => (c, issues ++ [⟨[field.key], e⟩]) := by
  rw [take, given]
  rcases fields.lookup field.key with _ | r
  · by_cases hm : field = .model <;> simp [hm, hc]
  · dsimp only
    rw [assign_eq c initial]
    rcases initial.assign field r with e | d <;> rfl

/-- Every field of a list is taken once; the others stay. -/
lemma foldl_take (fields : List (String × Raw)) {l : List Setting} (hl : l.Nodup)
    (hc : ∀ field ∈ l, c.copy field initial = c) (issues : List FieldIssue) :
    (l.foldl (take fields) (c, issues)).2 = issues ++ l.flatMap (issuesOf fields) ∧
      (∀ field ∈ l, ∀ d, given fields field = .ok d →
        (l.foldl (take fields) (c, issues)).1.copy field d =
          (l.foldl (take fields) (c, issues)).1) ∧
      ∀ field ∉ l, (l.foldl (take fields) (c, issues)).1.copy field c =
        (l.foldl (take fields) (c, issues)).1 := by
  induction l generalizing c issues with
  | nil => simp
  | cons field l ih =>
    obtain ⟨hnot, hl⟩ := List.nodup_cons.mp hl
    have hne {f : Setting} (hf : f ∈ l) : f ≠ field := fun h => hnot (h ▸ hf)
    rw [List.foldl_cons, take_eq (hc field (by simp)), List.flatMap_cons, issuesOf]
    rcases hg : given fields field with e | d
    · obtain ⟨hissues, hin, hout⟩ := ih hl (fun f hf => hc f (by simp [hf]))
        (issues ++ [⟨[field.key], e⟩])
      refine ⟨by rw [hissues, List.append_assoc], fun f hf d hd => ?_, fun f hf => ?_⟩
      · rcases List.mem_cons.mp hf with rfl | hf
        · rw [hg] at hd
          cases hd
        · exact hin f hf d hd
      · exact hout f fun hm => hf (by simp [hm])
    · obtain ⟨hissues, hin, hout⟩ := ih (c := c.copy field d) hl (fun f hf => by
        rw [copy_comm (hne hf).symm, hc f (by simp [hf])]) issues
      refine ⟨by rw [hissues, List.nil_append], fun f hf d' hd => ?_, fun f hf => ?_⟩
      · rcases List.mem_cons.mp hf with rfl | hf
        · obtain rfl := Except.ok.inj (hg.symm.trans hd)
          rw [← copy_of_copy _ c, hout f hnot]
        · exact hin f hf d' hd
      · simp only [List.mem_cons, not_or] at hf
        rw [← copy_of_copy_ne hf.1 _ c d]
        exact hout f hf.2

/-- Settings are refused for what is wrong with each field, and for fields that there are not. -/
lemma ofRaw_eq (fields : List (String × Raw)) :
    ofRaw fields =
      match Setting.all.flatMap (issuesOf fields) ++
          unknownFields (Setting.all.map Setting.key) fields with
      | [] => .ok (Setting.all.foldl (take fields) (initial, [])).1
      | issues => .error issues := by
  rw [ofRaw]
  dsimp only
  rw [(foldl_take fields Setting.nodup_all (fun field _ => copy_self initial field) []).1]
  rfl

/-- Settings are made where every field of the values is one of theirs, and then each has what it
is given. -/
lemma ofRaw_eq_ok_iff : ofRaw fields = .ok c ↔
    (∀ name ∈ fields.map Prod.fst, name ∈ Setting.all.map Setting.key) ∧
      ∀ field, ∃ d, given fields field = .ok d ∧ c.copy field d = c := by
  obtain ⟨-, hin, -⟩ :=
    foldl_take fields Setting.nodup_all (fun field _ => copy_self initial field) []
  have hnil : Setting.all.flatMap (issuesOf fields) = [] ↔
      ∀ field, ∃ d, given fields field = .ok d := by
    rw [List.flatMap_eq_nil_iff]
    refine ⟨fun h field => ?_, fun h field _ => ?_⟩
    · have hi := h field (Setting.mem_all field)
      rw [issuesOf] at hi
      rcases hg : given fields field with e | d
      · simp [hg] at hi
      · exact ⟨d, rfl⟩
    · obtain ⟨d, hd⟩ := h field
      rw [issuesOf, hd]
  rw [ofRaw_eq, ← unknownFields_eq_nil_iff]
  constructor
  · intro h
    split at h
    · next hissues =>
      obtain rfl := Except.ok.inj h
      obtain ⟨hissues, hunknown⟩ := List.append_eq_nil_iff.mp hissues
      refine ⟨hunknown, fun field => ?_⟩
      obtain ⟨d, hd⟩ := hnil.mp hissues field
      exact ⟨d, hd, hin field (Setting.mem_all field) d hd⟩
    · cases h
  · rintro ⟨hunknown, hall⟩
    rw [hunknown, hnil.mpr fun field => ⟨_, (hall field).choose_spec.1⟩]
    refine congrArg Except.ok (ext_copy fun field => ?_)
    obtain ⟨d, hd, hc⟩ := hall field
    rw [← hc, copy_of_copy]
    exact hin field (Setting.mem_all field) d hd

/-- What a field of accepted settings holds was checked on its own, or it is what settings start
with. -/
lemma Accepted.exists_checked (h : c.Accepted) (field : Setting) : ∃ d,
    (field ≠ .model ∧ d = initial ∨ ∃ r, initial.assign field r = .ok d) ∧
      c.copy field d = c := by
  induction h with
  | @made fields c h =>
    obtain ⟨d, hd, hc⟩ := (ofRaw_eq_ok_iff.mp h).2 field
    refine ⟨d, ?_, hc⟩
    rw [given] at hd
    split at hd
    · split at hd
      · cases hd
      · next hne => exact .inl ⟨hne, (Except.ok.inj hd).symm⟩
    · exact .inr ⟨_, hd⟩
  | @assigned c c' field' r _ h ih =>
    rw [assign_eq c initial] at h
    rcases hd : initial.assign field' r with e | d
    · simp [hd, Except.map] at h
    · obtain rfl : c.copy field' d = c' := by simpa [hd, Except.map] using h
      by_cases hf : field' = field
      · subst hf
        exact ⟨d, .inr ⟨r, hd⟩, copy_copy ..⟩
      · obtain ⟨d', hd', hc⟩ := ih
        exact ⟨d', hd', by rw [copy_comm hf, hc]⟩

/-- Assigns one value after the other. A refused one changes nothing; the others are told. -/
def assignAll (c : Settings) : List (String × Raw) → Settings × List (String × Raw)
  | [] => (c, [])
  | a :: as =>
    match c.assignNamed a.1 a.2 with
    | .ok c => ((assignAll c as).1, a :: (assignAll c as).2)
    | .error _ => assignAll c as

variable {a : String × Raw} {as : List (String × Raw)}

end Settings

end EloquentEntity
