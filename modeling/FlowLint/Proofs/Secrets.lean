import FlowLint.Proofs.Independence
import FlowLint.Proofs.Location
import FlowLint.Proofs.Table

/-! References to secrets. A workflow has one for each expression that reads a secret, in the order
of the text; the part of the workflow that it stands in is told from the keys and numbers that lead
to its scalar, as they are, though the program reads them back from the pointer. What the ranked
list says of secrets that are exposed is stated on the scalars of the document
(`secretRefs_exposed`). -/

namespace FlowLint

open FlowLint.Tree (Node Scalar Mapping Document Pointer.child Pointer.item Pointer.descendant
  Pointer.segments)

namespace Tree

mutual

/-- The scalars of a tree in the order of the text, each with the keys and numbers that lead to it
from a node to which `path` leads. -/
def Node.scalars (path : List String) : Node → List (List String × Scalar)
  | .scalar s => [(path, s)]
  | .sequence _ items => scalarsOfItems path 0 items
  | .mapping _ entries => scalarsOfEntries path entries

@[inherit_doc Node.scalars] def scalarsOfItems (path : List String) (first : Nat) :
    List Node → List (List String × Scalar)
  | [] => []
  | n :: rest => n.scalars (path ++ [toString first]) ++ scalarsOfItems path (first + 1) rest

@[inherit_doc Node.scalars] def scalarsOfEntries (path : List String) :
    List (Scalar × Node) → List (List String × Scalar)
  | [] => []
  | (key, n) :: rest => n.scalars (path ++ [key.value]) ++ scalarsOfEntries path rest

end

/-- The scalars among some nodes with their pointers. -/
def scalarsAmong (nodes : List (String × Node)) : List (String × Scalar) :=
  nodes.filterMap fun x => x.2.scalar?.map (x.1, ·)

theorem scalarsAmong_append (l l' : List (String × Node)) :
    scalarsAmong (l ++ l') = scalarsAmong l ++ scalarsAmong l' := List.filterMap_append

/-- The scalars with the pointers that are written for their keys and numbers. -/
def pointed (scalars : List (List String × Scalar)) : List (String × Scalar) :=
  scalars.map fun x => (Pointer.descendant "" x.1, x.2)

theorem pointed_append (l l' : List (List String × Scalar)) :
    pointed (l ++ l') = pointed l ++ pointed l' := List.map_append

mutual

/-- The list of all nodes holds the scalars in the same order, under the pointers of their keys and
numbers. -/
theorem scalarsAmong_walk (path : List String) (n : Node) :
    scalarsAmong (n.walk (Pointer.descendant "" path)) = pointed (n.scalars path) := by
  cases n with
  | scalar s => rfl
  | sequence o items => exact scalarsAmong_walkItems path 0 items
  | mapping o entries => exact scalarsAmong_walkEntries path entries

theorem scalarsAmong_walkItems (path : List String) (first : Nat) (items : List Node) :
    scalarsAmong (walkItems (Pointer.descendant "" path) first items) =
      pointed (scalarsOfItems path first items) := by
  cases items with
  | nil => rfl
  | cons n rest =>
    have below := scalarsAmong_walk (path ++ [toString first]) n
    rw [Pointer.descendant_concat] at below
    rw [walkItems, scalarsOfItems, scalarsAmong_append, pointed_append,
      scalarsAmong_walkItems path (first + 1) rest]
    exact congrArg (· ++ _) below

theorem scalarsAmong_walkEntries (path : List String) (entries : List (Scalar × Node)) :
    scalarsAmong (walkEntries (Pointer.descendant "" path) entries) =
      pointed (scalarsOfEntries path entries) := by
  match entries with
  | [] => rfl
  | (key, n) :: rest =>
    have below := scalarsAmong_walk (path ++ [key.value]) n
    rw [Pointer.descendant_concat] at below
    rw [walkEntries, scalarsOfEntries, scalarsAmong_append, pointed_append,
      scalarsAmong_walkEntries path rest]
    exact congrArg (· ++ _) below

end

/-- The expressions of a tree that read a secret, in the order of the text, each with its scalar. -/
def Node.secretReadings (n : Node) : List ((List String × Scalar) × String) :=
  (n.scalars []).flatMap fun x => (Expression.secrets x.2.value).map (x, ·)

/-- What is read of the scalars alone is read of the list of scalars. -/
theorem flatMap_scalarsAmong {β : Type} {f : String × Node → List β}
    {g : String × Scalar → List β} (scalar : ∀ p s, f (p, .scalar s) = g (p, s))
    (other : ∀ p n, n.scalar? = none → f (p, n) = []) (l : List (String × Node)) :
    l.flatMap f = (scalarsAmong l).flatMap g := by
  induction l with
  | nil => rfl
  | cons x rest ih =>
    obtain ⟨p, n⟩ := x
    rw [List.flatMap_cons, ih]
    cases n with
    | scalar s =>
      rw [scalar]
      rfl
    | sequence | mapping =>
      rw [other _ _ rfl]
      rfl

end Tree

theorem secretsBelow_eq (n : Node) :
    secretsBelow n "" =
      n.secretReadings.map fun x => (Pointer.descendant "" x.1.1, x.2, x.1.2.origin.line) := by
  have scalars : Tree.scalarsAmong (n.walk "") = _ := Tree.scalarsAmong_walk [] n
  rw [secretsBelow]
  refine (Tree.flatMap_scalarsAmong
    (g := fun x => (Expression.secrets x.2.value).map (x.1, ·, x.2.origin.line))
    (fun _ _ => rfl) (fun _ n other => ?_) _).trans ?_
  · cases n with
    | scalar s => cases other
    | sequence | mapping => rfl
  · rw [scalars, Tree.pointed, List.flatMap_map, Node.secretReadings, List.map_flatMap]
    simp only [List.map_map, Function.comp_def]

/-! ### Scopes -/

namespace SecretScope

/-- The scope and the job of what the keys and numbers `path` lead to. -/
inductive Covers : List String → SecretScope → Option String → Prop where
  | rootEnv {rest : List String} : Covers ("env" :: rest) .rootEnv none
  | jobEnv {job : String} {rest : List String} :
      Covers ("jobs" :: job :: "env" :: rest) .jobEnv (some job)
  | jobSecrets {job : String} {rest : List String} :
      Covers ("jobs" :: job :: "secrets" :: rest) .jobSecrets (some job)
  | jobWith {job : String} {rest : List String} :
      Covers ("jobs" :: job :: "with" :: rest) .jobWith (some job)
  | stepEnv {job step : String} {rest : List String} :
      Covers ("jobs" :: job :: "steps" :: step :: "env" :: rest) .stepEnv (some job)
  | stepWith {job step : String} {rest : List String} :
      Covers ("jobs" :: job :: "steps" :: step :: "with" :: rest) .stepWith (some job)
  | run {job step : String} {rest : List String} :
      Covers ("jobs" :: job :: "steps" :: step :: "run" :: rest) .run (some job)
  /-- Something else in a job. -/
  | inJob {job part : String} {rest : List String} :
      part ∉ ["env", "secrets", "with"] →
      (∀ step key below, part :: rest = "steps" :: step :: key :: below →
        key ∉ ["env", "with", "run"]) →
      Covers ("jobs" :: job :: part :: rest) .other (some job)
  | outside {path : List String} :
      (∀ rest, path ≠ "env" :: rest) → (∀ job part rest, path ≠ "jobs" :: job :: part :: rest) →
      Covers path .other none

variable {path : List String} {scope : SecretScope} {job : Option String}

theorem ofStepKey_eq_other {key : String} (h : key ∉ ["env", "with", "run"]) :
    ofStepKey key = .other := by
  simp only [List.mem_cons, List.not_mem_nil, or_false, not_or] at h
  simp [ofStepKey, h]

theorem ofSegments_of_covers (h : Covers path scope job) : ofSegments path = (scope, job) := by
  cases h with
  | rootEnv | jobEnv | jobSecrets | jobWith | stepEnv | stepWith | run => rfl
  | @inJob job part rest differ steps =>
    simp only [List.mem_cons, List.not_mem_nil, or_false, not_or] at differ
    match rest with
    | [] | [_] => simp [ofSegments, differ]
    | step :: key :: below =>
      by_cases isSteps : part = "steps"
      · simp [ofSegments, isSteps, ofStepKey_eq_other (steps step key below (by rw [isSteps]))]
      · simp [ofSegments, differ, isSteps]
  | outside noEnv noJob =>
    unfold ofSegments
    split
    next rest => exact absurd rfl (noEnv rest)
    next job part rest => exact absurd rfl (noJob job part rest)
    · rfl

/-- Every path leads to one scope. -/
theorem exists_covers (path : List String) : ∃ scope job, Covers path scope job := by
  by_cases env : ∃ rest, path = "env" :: rest
  · obtain ⟨rest, rfl⟩ := env
    exact ⟨_, _, .rootEnv⟩
  by_cases inside : ∃ job part rest, path = "jobs" :: job :: part :: rest
  · obtain ⟨job, part, rest, rfl⟩ := inside
    by_cases known : part ∈ ["env", "secrets", "with"]
    · simp only [List.mem_cons, List.not_mem_nil, or_false] at known
      rcases known with rfl | rfl | rfl
      · exact ⟨_, _, .jobEnv⟩
      · exact ⟨_, _, .jobSecrets⟩
      · exact ⟨_, _, .jobWith⟩
    by_cases steps : ∃ step key below, part :: rest = "steps" :: step :: key :: below ∧
        key ∈ ["env", "with", "run"]
    · obtain ⟨step, key, below, same, hkey⟩ := steps
      cases same
      simp only [List.mem_cons, List.not_mem_nil, or_false] at hkey
      rcases hkey with rfl | rfl | rfl
      · exact ⟨_, _, .stepEnv⟩
      · exact ⟨_, _, .stepWith⟩
      · exact ⟨_, _, .run⟩
    · exact ⟨_, _, .inJob known fun step key below same hkey =>
        steps ⟨step, key, below, same, hkey⟩⟩
  · exact ⟨_, _, .outside (fun rest h => env ⟨rest, h⟩)
      fun job part rest h => inside ⟨job, part, rest, h⟩⟩

theorem covers_iff : Covers path scope job ↔ ofSegments path = (scope, job) := by
  refine ⟨ofSegments_of_covers, fun h => ?_⟩
  obtain ⟨scope', job', covers⟩ := exists_covers path
  cases (ofSegments_of_covers covers).symm.trans h
  exact covers

theorem Covers.unique {scope' : SecretScope} {job' : Option String} (h : Covers path scope job)
    (h' : Covers path scope' job') : scope = scope' ∧ job = job' :=
  Prod.mk.inj ((ofSegments_of_covers h).symm.trans (ofSegments_of_covers h'))

end SecretScope

/-! ### References -/

/-- The reference is one to an expression of a scalar. -/
structure SecretRef.Reads (x : (List String × Scalar) × String) (r : SecretRef) : Prop where
  path : r.path = Pointer.descendant "" x.1.1
  expression : r.expression = x.2
  line : r.line = x.1.2.origin.line
  scope : SecretScope.Covers x.1.1 r.scope r.jobId

namespace SecretRef

/-- The reference to an expression of a scalar. -/
def ofReading (x : (List String × Scalar) × String) : SecretRef where
  path := Pointer.descendant "" x.1.1
  expression := x.2
  scope := (SecretScope.ofSegments x.1.1).1
  jobId := (SecretScope.ofSegments x.1.1).2
  line := x.1.2.origin.line

theorem reads_ofReading (x : (List String × Scalar) × String) : Reads x (ofReading x) :=
  ⟨rfl, rfl, rfl, SecretScope.covers_iff.mpr rfl⟩

/-- The segments that are read back from a pointer are those that it was written for. -/
theorem ofRoot_eq (n : Node) : ofRoot n = n.secretReadings.map ofReading := by
  rw [ofRoot, secretsBelow_eq, List.map_map]
  refine List.map_congr_left fun x _ => ?_
  simp only [Function.comp_apply, Tree.Pointer.segments_descendant, ofReading]

theorem forall₂_reads (n : Node) : n.secretReadings.Forall₂ Reads (ofRoot n) := by
  rw [ofRoot_eq, List.forall₂_map_right_iff]
  exact List.forall₂_same.mpr fun x _ => reads_ofReading x

end SecretRef

theorem Node.mem_secretReadings {n : Node} {x : (List String × Scalar) × String} :
    x ∈ n.secretReadings ↔ x.1 ∈ n.scalars [] ∧ x.2 ∈ Expression.secrets x.1.2.value := by
  obtain ⟨x, e⟩ := x
  simp only [Node.secretReadings, List.mem_flatMap, List.mem_map, Prod.mk.injEq]
  constructor
  · rintro ⟨y, hy, e, he, rfl, rfl⟩
    exact ⟨hy, he⟩
  · rintro ⟨hx, he⟩
    exact ⟨x, hx, e, he, rfl, rfl⟩

namespace Security

variable {w : Workflow} {s : Settings}

/-- No comment excuses what the reference reads. -/
def IsBlamed (w : Workflow) (s : Settings) (r : SecretRef) : Prop :=
  r.scope = .rootEnv ∨ r.scope = .jobEnv ∧ isJustified w s r.line = false ∧
    ∀ key, envKey? w r.jobId = some key → isJustified w s key.origin.line = false

theorem mem_secretScope_iff {p : String} : (∃ d ∈ secretScope w s, d.location = p) ↔
    ∃ r ∈ w.secretRefs, r.path = p ∧ IsBlamed w s r := by
  have excused_iff (r : SecretRef) : (isJustified w s r.line ||
      (envKey? w r.jobId).any fun key => isJustified w s key.origin.line) = false ↔
        isJustified w s r.line = false ∧
          ∀ key, envKey? w r.jobId = some key → isJustified w s key.origin.line = false := by
    cases envKey? w r.jobId <;> simp
  simp only [secretScope, List.mem_filterMap]
  constructor
  · rintro ⟨d, ⟨r, hr, hd⟩, rfl⟩
    refine ⟨r, hr, ?_⟩
    split at hd
    next isRoot =>
      cases hd
      exact ⟨rfl, .inl isRoot⟩
    next isJob =>
      split at hd
      · cases hd
      next blamed =>
        cases hd
        exact ⟨rfl, .inr ⟨isJob, (excused_iff r).mp (Bool.eq_false_iff.mpr blamed)⟩⟩
    · cases hd
  · rintro ⟨r, hr, rfl, isRoot | ⟨isJob, blamed⟩⟩
    · exact ⟨_, ⟨r, hr, by rw [isRoot]⟩, rfl⟩
    · have kept := Bool.eq_false_iff.mp ((excused_iff r).mpr blamed)
      exact ⟨_, ⟨r, hr, by rw [isJob]; exact if_neg kept⟩, rfl⟩

/-- A secret in the scalar is seen by all steps of a workflow or of a job, and no comment at the
scalar or at the environment of the job excuses that; nothing excuses it in a workflow. -/
def Exposes (w : Workflow) (s : Settings) (x : List String × Scalar) : Prop :=
  (∃ rest, x.1 = "env" :: rest) ∨
    ∃ id rest, x.1 = "jobs" :: id :: "env" :: rest ∧ isJustified w s x.2.origin.line = false ∧
      ∀ j, w.job? id = some j → ∀ key, j.node.keyNode? "env" = some key →
        isJustified w s key.origin.line = false

theorem envKey?_eq_some_iff {id : String} {key : Scalar} :
    envKey? w (some id) = some key ↔
      ∃ j, w.job? id = some j ∧ j.node.keyNode? "env" = some key := by
  rw [envKey?, Option.bind_some, Option.bind_eq_some_iff]

theorem isBlamed_iff {x : (List String × Scalar) × String} {r : SecretRef} (h : r.Reads x) :
    IsBlamed w s r ↔ Exposes w s x.1 := by
  obtain ⟨⟨path, scalar⟩, e⟩ := x
  have line : r.line = scalar.origin.line := h.line
  have scope : SecretScope.Covers path r.scope r.jobId := h.scope
  rw [IsBlamed, Exposes, line]
  constructor
  · rintro (isRoot | ⟨isJob, blamed, key⟩)
    · rw [isRoot] at scope
      generalize r.jobId = job at scope
      cases scope
      exact .inl ⟨_, rfl⟩
    · rw [isJob] at scope
      generalize r.jobId = job at scope key
      cases scope with
      | @jobEnv id rest =>
        exact .inr ⟨id, rest, rfl, blamed, fun j hj k hk =>
          key k (envKey?_eq_some_iff.mpr ⟨j, hj, hk⟩)⟩
  · rintro (⟨rest, rfl⟩ | ⟨id, rest, rfl, blamed, key⟩)
    · exact .inl (scope.unique .rootEnv).1
    · obtain ⟨isJob, job⟩ := scope.unique .jobEnv
      refine .inr ⟨isJob, blamed, fun k hk => ?_⟩
      obtain ⟨j, hj, hk⟩ := envKey?_eq_some_iff.mp (job ▸ hk)
      exact key j hj k hk

/-- The rule about secrets names the scalars that read one where it is exposed. -/
theorem exists_secretScope_iff {n : Node} (refs : w.secretRefs = SecretRef.ofRoot n) {p : String} :
    (∃ d ∈ secretScope w s, d.location = p) ↔
      ∃ x ∈ n.scalars [], p = Pointer.descendant "" x.1 ∧ Expression.secrets x.2.value ≠ [] ∧
        Exposes w s x := by
  rw [mem_secretScope_iff, refs, SecretRef.ofRoot_eq]
  constructor
  · rintro ⟨r, hr, rfl, blamed⟩
    obtain ⟨x, hx, rfl⟩ := List.mem_map.mp hr
    obtain ⟨there, he⟩ := Node.mem_secretReadings.mp hx
    exact ⟨x.1, there, rfl, List.ne_nil_of_mem he,
      (isBlamed_iff (SecretRef.reads_ofReading x)).mp blamed⟩
  · rintro ⟨x, hx, rfl, some, exposed⟩
    obtain ⟨e, he⟩ := List.exists_mem_of_ne_nil _ some
    have reading : (x, e) ∈ n.secretReadings := Node.mem_secretReadings.mpr ⟨hx, he⟩
    exact ⟨SecretRef.ofReading (x, e), List.mem_map_of_mem reading, rfl,
      (isBlamed_iff (SecretRef.reads_ofReading (x, e))).mpr exposed⟩

end Security

/-- The rule about secrets. -/
def Security.secretRule : Rule :=
  .total "secret-scope" .triggersPermissions .mustFix
    "Secrets are scoped to the step that uses them" secretScope

theorem Security.rule?_secretScope :
    Catalog.rule? "secret-scope" = some Security.secretRule := by
  rfl

/-- The places that the ranked list of all rules blames for a secret. -/
def Security.blamedPlaces (doc : Document) (s : Settings) : List String :=
  ((merge (Rule.evaluateAll Catalog.rules (.ofDocument doc) s)).filter
    (·.ruleId == "secret-scope")).map (·.location)

/-- A workflow has one reference for each expression that reads a secret, in the order of the text:
its pointer and line are those of its scalar, its scope and job follow from the keys and numbers on
the way there, whatever characters they are made of. The ranked list blames, each once, the scalars
with a secret under the environment of the workflow, and those under the environment of a job that
no comment excuses. -/
theorem secretRefs_exposed {doc : Document} {root : Mapping}
    (isMapping : doc.root.mapping? = some root) (s : Settings) :
    Tree.scalarsAmong (doc.root.walk "") = Tree.pointed (doc.root.scalars []) ∧
    doc.root.secretReadings.Forall₂ SecretRef.Reads (Workflow.ofDocument doc).secretRefs ∧
    (Security.blamedPlaces doc s).Nodup ∧
    ∀ p, p ∈ Security.blamedPlaces doc s ↔
      ∃ x ∈ doc.root.scalars [], p = Pointer.descendant "" x.1 ∧
        Expression.secrets x.2.value ≠ [] ∧ Security.Exposes (.ofDocument doc) s x := by
  have refs : (Workflow.ofDocument doc).secretRefs = SecretRef.ofRoot doc.root := by
    rw [Workflow.ofDocument, isMapping]
  refine ⟨Tree.scalarsAmong_walk [] doc.root, ?_, nodup_locations _ _, fun p => ?_⟩
  · rw [refs]
    exact SecretRef.forall₂_reads doc.root
  · exact (Catalog.mem_locations_iff (Catalog.mem_of_rule? Security.rule?_secretScope)).trans
      (Security.exists_secretScope_iff refs)

/-- Secrets in the environments of a workflow and of two jobs with names that look like something
else; two of the three environments are marked as reviewed. -/
def reviewedText : String :=
  "env:\n  T: $\x7b\x7b secrets.A \x7d\x7d # reviewed\n" ++
    "jobs:\n  a/b:\n    env: # reviewed\n      K: $\x7b\x7b secrets.B \x7d\x7d\n" ++
    "  env:\n    env:\n      L/~: $\x7b\x7b secrets.C \x7d\x7d$\x7b\x7b secrets.D \x7d\x7d\n"

def reviewedRefs : List SecretRef :=
  [⟨"/env/T", "$\x7b\x7b secrets.A \x7d\x7d", .rootEnv, none, 2⟩,
    ⟨"/jobs/a~1b/env/K", "$\x7b\x7b secrets.B \x7d\x7d", .jobEnv, some "a/b", 6⟩,
    ⟨"/jobs/env/env/L~1~0", "$\x7b\x7b secrets.C \x7d\x7d", .jobEnv, some "env", 9⟩,
    ⟨"/jobs/env/env/L~1~0", "$\x7b\x7b secrets.D \x7d\x7d", .jobEnv, some "env", 9⟩]

theorem secretRefs_exposed_reviewed : ∃ doc root,
    Tree.load reviewedText = .ok doc ∧ doc.root.mapping? = some root ∧
    (Workflow.ofDocument doc).secretRefs = reviewedRefs ∧
    Security.blamedPlaces doc {} = ["/env/T", "/jobs/env/env/L~1~0"] ∧
    doc.root.secretReadings.Forall₂ SecretRef.Reads reviewedRefs ∧
    ∀ p, p ∈ ["/env/T", "/jobs/env/env/L~1~0"] ↔
      ∃ x ∈ doc.root.scalars [], p = Pointer.descendant "" x.1 ∧
        Expression.secrets x.2.value ≠ [] ∧ Security.Exposes (.ofDocument doc) {} x := by
  obtain ⟨doc, loaded, found⟩ := Tree.exists_of_toOption (show
    (Tree.load reviewedText).toOption.map (fun doc =>
      (doc.root.mapping?.isSome, (Workflow.ofDocument doc).secretRefs,
        Security.blamedPlaces doc {})) =
      some (true, reviewedRefs, ["/env/T", "/jobs/env/env/L~1~0"]) by
    decide +kernel)
  obtain ⟨isMapping, rest⟩ := Prod.mk.inj found
  obtain ⟨refs, places⟩ := Prod.mk.inj rest
  obtain ⟨root, hroot⟩ := Option.isSome_iff_exists.mp isMapping
  obtain ⟨-, reads, -, exposed⟩ := secretRefs_exposed hroot {}
  rw [refs] at reads
  rw [places] at exposed
  exact ⟨doc, root, loaded, hroot, refs, places, reads, exposed⟩

/-- Steps that are no sequence. -/
def namedStepText : String :=
  "jobs:\n  a:\n    steps:\n      x:\n        run: $\x7b\x7b secrets.K \x7d\x7d\n"

/-- What stands in a step may be found under a key, not under a number. -/
theorem not_forall_run_numbered : ¬ ∀ text doc, Tree.load text = .ok doc →
    ∀ r ∈ (Workflow.ofDocument doc).secretRefs, r.scope = .run →
      ∃ (job : String) (i : Nat) (rest : List String),
        Pointer.segments r.path = "jobs" :: job :: "steps" :: toString i :: rest := by
  intro all
  obtain ⟨doc, loaded, found⟩ := Tree.exists_of_toOption (show
    (Tree.load namedStepText).toOption.map (fun doc =>
      (Workflow.ofDocument doc).secretRefs.map fun r => (r.path, r.scope)) =
      some [("/jobs/a/steps/x/run", .run)] by
    decide +kernel)
  obtain ⟨r, refs, same⟩ := List.map_eq_singleton_iff.mp found
  obtain ⟨path, scope⟩ := Prod.mk.inj same
  obtain ⟨job, i, rest, numbered⟩ := all _ doc loaded r (by simp [refs]) scope
  rw [path, show Pointer.segments "/jobs/a/steps/x/run" = ["jobs", "a", "steps", "x", "run"] by
    decide +kernel] at numbered
  have key : "x" = toString i := by simp_all
  have digits := Tree.isNumeral_toString i
  rw [← key] at digits
  exact absurd digits (by decide +kernel)

end FlowLint
