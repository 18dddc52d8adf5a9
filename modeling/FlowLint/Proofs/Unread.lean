import FlowLint.Proofs.Appending
import FlowLint.Proofs.Independence
import FlowLint.Review

/-! Content of the root that has no meaning. A document whose nodes lie in its text is reviewed as
before when an entry is added to its root under a key that means nothing, and lines to its text: no
rule says more or less (`Catalog.check_extend`), and no finding is ranked elsewhere
(`review_unread`). The entry must hold no anchors and no block scalars, which are found wherever
they stand. -/

namespace FlowLint

open FlowLint.Tree (Node Scalar Mapping Document Origin Pointer.child)

/-- The scalar begins and ends in the first `k` lines. -/
def Tree.Scalar.LinesTo (k : Nat) (s : Scalar) : Prop := s.origin.line ≤ k ∧ s.endLine ≤ k

/-- The node begins in the first `k` lines, the scalar or the keys there end in them. -/
def Tree.Node.LinesTo (k : Nat) : Node → Prop
  | .scalar s => s.LinesTo k
  | .sequence o _ => o.line ≤ k
  | .mapping o entries => o.line ≤ k ∧ ∀ e ∈ entries, e.1.LinesTo k

instance {k : Nat} : DecidablePred (Tree.Scalar.LinesTo k) :=
  fun _ => inferInstanceAs (Decidable (_ ∧ _))

instance {k : Nat} : DecidablePred (Node.LinesTo k)
  | .scalar s => inferInstanceAs (Decidable (s.LinesTo k))
  | .sequence o _ => inferInstanceAs (Decidable (o.line ≤ k))
  | .mapping _ _ => inferInstanceAs (Decidable (_ ∧ _))

/-- Nodes that no rule looks for: they have no anchors and are no block scalars. -/
def Tree.Node.IsPlain (n : Node) : Prop :=
  n.origin.anchor = none ∧ ∀ s ∈ n.scalar?, s.isBlock = false

instance : DecidablePred Node.IsPlain := fun _ => inferInstanceAs (Decidable (_ ∧ _))

theorem Tree.Node.all_iff_walk {P : Node → Prop} {n : Node} :
    n.All P ↔ ∀ x ∈ n.walk "", P x.2 := by
  constructor
  · intro all x hx
    obtain ⟨path, hn, -⟩ := Node.mem_walk_iff.mp hx
    exact all path x.2 hn
  · intro all path m hm
    exact all _ (Node.mem_walk_iff.mpr ⟨path, hm, rfl⟩)

instance {P : Node → Prop} [DecidablePred P] (n : Node) : Decidable (n.All P) :=
  decidable_of_iff' _ Node.all_iff_walk

theorem Holds.all {doc : Document} {P : Node → Prop} {p : String} {n : Node} (h : Holds doc p n)
    (all : doc.root.All P) : P n := Node.all_iff_walk.mp all _ h

section Lines

variable {doc : Document} {k : Nat} (lines : doc.root.All (Node.LinesTo k))

include lines

/-- The key of a job stands in the first lines, and so does what a job holds. -/
theorem Workflow.job_linesTo {j : Job} (hj : j ∈ (Workflow.ofDocument doc).jobs) :
    j.key.LinesTo k ∧ ∀ e ∈ j.node.entries, e.1.LinesTo k ∧ ∀ s, e.2 = .scalar s → s.LinesTo k := by
  rcases Workflow.ofDocument_eq doc with empty | ⟨root, there, -, -, -, jobs, -⟩
  · rw [empty] at hj
    cases hj
  · rw [jobs] at hj
    obtain ⟨o, entries, found, he, -⟩ := Job.mem_ofNode hj
    have all_jobs : Holds doc "/jobs" (.mapping o entries) := there.get? found
    have part : ∀ n, root.get? "jobs" = some n → Holds doc (Pointer.child "" "jobs") n :=
      fun n hn => there.get? hn
    have job : Holds doc j.path (.mapping j.node.origin j.node.entries) :=
      Job.holds_of_mem part hj
    refine ⟨(all_jobs.all lines).2 _ he, fun e he => ⟨(job.all lines).2 e he, fun s same => ?_⟩⟩
    have part : Holds doc (Pointer.child j.path e.1.value) e.2 :=
      Node.mem_walk_child job (Node.mem_children_mapping.mpr ⟨e.1, he, rfl⟩)
    rw [same] at part
    exact part.all lines

theorem Workflow.secretRef_linesTo {r : SecretRef}
    (hr : r ∈ (Workflow.ofDocument doc).secretRefs) : r.line ≤ k := by
  obtain ⟨x, hx, rfl⟩ := List.mem_map.mp (Workflow.mem_secretRefs hr)
  obtain ⟨path, s, at_path, -, line⟩ := mem_secretsBelow hx
  have begins : s.LinesTo k := lines path _ at_path
  exact line.trans_le begins.1

end Lines

/-- More elements change nothing if nothing is made of them. -/
theorem filterMap_append_silent {α β : Type} {f f' : α → Option β} {l l' : List α}
    (same : ∀ x ∈ l, f' x = f x) (silent : ∀ x ∈ l', f' x = none) :
    (l ++ l').filterMap f' = l.filterMap f := by
  rw [List.filterMap_append, List.filterMap_congr same, List.filterMap_eq_nil_iff.mpr silent,
    List.append_nil]

section Rules

variable {doc : Document} {o : Origin} {entries : List (Scalar × Node)} {key : Scalar} {v : Node}
  {more : String} {extras : List String} {refs strays : List SecretRef} (s : Settings)

/-- The comments at the lines of the document excuse what they excused. -/
theorem isJustified_extend (key : Scalar) (v : Node) (more : String) (extras : List String)
    (refs : List SecretRef) (s : Settings) (ended : Text.EndsLine doc.text) {line : Nat}
    (old : line ≤ doc.lines.length) :
    Security.isJustified
        ((Workflow.ofDocument doc).withSource (doc.extend key v more) extras refs) s line =
      Security.isJustified (Workflow.ofDocument doc) s line := by
  rw [Security.isJustified, Security.isJustified, Workflow.source_ofDocument]
  exact Document.hasMarker_extend ended old _

theorem slimRunnerSecrets_extend (ended : Text.EndsLine doc.text)
    (lines : doc.root.All (Node.LinesTo doc.lines.length))
    (stray : ∀ r ∈ strays, Workflow.Stray r) :
    Security.slimRunnerSecrets ((Workflow.ofDocument doc).withSource (doc.extend key v more) extras
        ((Workflow.ofDocument doc).secretRefs ++ strays)) s =
      Security.slimRunnerSecrets (Workflow.ofDocument doc) s := by
  have of_no_job : ∀ j : Job, strays.any (·.jobId == some j.id) = false := by
    intro j
    rw [List.any_eq_false]
    intro r hr
    simp [(stray r hr).2]
  refine List.filterMap_congr fun j hj => ?_
  have secrets : ((Workflow.ofDocument doc).secretRefs ++ strays).any (·.jobId == some j.id) =
      (Workflow.ofDocument doc).secretRefs.any (·.jobId == some j.id) := by
    rw [List.any_append, of_no_job, Bool.or_false]
  have excuse := isJustified_extend key v more extras
    ((Workflow.ofDocument doc).secretRefs ++ strays) s ended (Workflow.job_linesTo lines hj).1.1
  simp only [excuse]
  simp only [Workflow.withSource, secrets]

theorem envKey?_linesTo {k : Nat} (lines : doc.root.All (Node.LinesTo k)) {jobId : Option String}
    {env : Scalar} (h : Security.envKey? (Workflow.ofDocument doc) jobId = some env) :
    env.origin.line ≤ k := by
  obtain ⟨id, -, h⟩ := Option.bind_eq_some_iff.mp h
  obtain ⟨j, hj, h⟩ := Option.bind_eq_some_iff.mp h
  obtain ⟨e, he, rfl⟩ := Option.map_eq_some_iff.mp h
  have job := Workflow.job_linesTo lines (List.mem_reverse.mp (List.mem_of_find?_eq_some hj))
  exact (job.2 e (List.mem_of_find?_eq_some he)).1.1

theorem secretScope_extend (ended : Text.EndsLine doc.text)
    (lines : doc.root.All (Node.LinesTo doc.lines.length))
    (stray : ∀ r ∈ strays, Workflow.Stray r) :
    Security.secretScope ((Workflow.ofDocument doc).withSource (doc.extend key v more) extras
        ((Workflow.ofDocument doc).secretRefs ++ strays)) s =
      Security.secretScope (Workflow.ofDocument doc) s := by
  have excuse {line : Nat} (old : line ≤ doc.lines.length) :=
    isJustified_extend key v more extras ((Workflow.ofDocument doc).secretRefs ++ strays) s ended
      old
  refine filterMap_append_silent (fun r hr => ?_) fun r hr => ?_
  · have own := excuse (Workflow.secretRef_linesTo lines hr)
    cases r.scope with
    | jobEnv =>
      simp only [own]
      change (if _ || (Security.envKey? (Workflow.ofDocument doc) r.jobId).any _ then _ else _) = _
      cases found : Security.envKey? (Workflow.ofDocument doc) r.jobId with
      | none => rfl
      | some env => simp only [Option.any_some, excuse (envKey?_linesTo lines found)]
    | _ => rfl
  · simp only [(stray r hr).1]

/-- The time limit of a job is a scalar of the document. -/
theorem timeoutNode_linesTo {k : Nat} (lines : doc.root.All (Node.LinesTo k)) {j : Job}
    (hj : j ∈ (Workflow.ofDocument doc).jobs) {node : Scalar} (h : j.timeoutNode = some node) :
    node.origin.line ≤ k := by
  obtain ⟨e, he, -⟩ := Mapping.get?_mem (scalarAt_eq_some h)
  exact ((Workflow.job_linesTo lines hj).2 _ he).2 node rfl |>.1

theorem jobTimeout_extend (ended : Text.EndsLine doc.text)
    (lines : doc.root.All (Node.LinesTo doc.lines.length)) :
    Security.jobTimeout
        ((Workflow.ofDocument doc).withSource (doc.extend key v more) extras refs) s =
      Security.jobTimeout (Workflow.ofDocument doc) s := by
  refine List.filterMap_congr fun j hj => ?_
  cases found : j.timeoutNode with
  | none => rfl
  | some node =>
    have excuse := isJustified_extend key v more extras refs s ended
      (timeoutNode_linesTo lines hj found)
    simp only [excuse]

theorem blockScalarSingleLine_extend (root : doc.root = .mapping o entries)
    (ended : Text.EndsLine doc.text) (lines : doc.root.All (Node.LinesTo doc.lines.length))
    (plain : v.All Node.IsPlain) :
    Style.blockScalarSingleLine
        ((Workflow.ofDocument doc).withSource (doc.extend key v more) extras refs) s =
      Style.blockScalarSingleLine (Workflow.ofDocument doc) s := by
  have count : ∀ t : Scalar, t.endLine ≤ doc.lines.length →
      Style.sourceLineCount
          ((Workflow.ofDocument doc).withSource (doc.extend key v more) extras refs) t =
        Style.sourceLineCount (Workflow.ofDocument doc) t := by
    intro t old
    simp only [Style.sourceLineCount, Workflow.withSource, Workflow.source_ofDocument,
      Document.lines_extend ended, List.take_append_of_le_length old]
  rw [Style.blockScalarSingleLine, Style.blockScalarSingleLine, Workflow.source_ofDocument]
  change ((doc.extend key v more).root.walk "").filterMap _ = _
  rw [Document.walk_extend root]
  have tail : doc.root.walk "" = ("", .mapping o entries) :: (doc.root.walk "").tail := by
    rw [root, Node.walk_eq]
    rfl
  -- The root is another node now, but it is no scalar before or after.
  conv_rhs => rw [tail]
  rw [List.filterMap_cons_none rfl, List.filterMap_cons_none rfl]
  refine filterMap_append_silent (fun x hx => ?_) fun x hx => ?_
  · have there : x ∈ doc.root.walk "" := by
      rw [tail]
      exact List.mem_cons_of_mem _ hx
    obtain ⟨pointer, n⟩ := x
    cases n with
    | scalar t =>
      have old : t.LinesTo doc.lines.length := Holds.all there lines
      simp only [count t old.2]
    | _ => rfl
  · obtain ⟨path, hn, -⟩ := Node.mem_walk_iff.mp hx
    obtain ⟨pointer, n⟩ := x
    cases n with
    | scalar t =>
      have flat := (plain path _ hn).2 t rfl
      simp only [flat]
      rfl
    | _ => rfl

theorem anchorsFrom_append_plain {passed : List String} {l l' : List (String × Node)}
    (plain : ∀ x ∈ l', x.2.origin.anchor = none) :
    Style.anchorsFrom passed (l ++ l') = Style.anchorsFrom passed l := by
  induction l generalizing passed with
  | nil =>
    induction l' with
    | nil => rfl
    | cons x rest ih =>
      obtain ⟨pointer, n⟩ := x
      obtain ⟨hx, hrest⟩ := List.forall_mem_cons.mp plain
      have later := ih hrest
      simp only at hx
      simp only [List.nil_append, Style.anchorsFrom, hx] at later ⊢
      rw [later, ite_self]
  | cons x rest ih => simp only [List.cons_append, Style.anchorsFrom, ih]

theorem anchorUsage_extend (root : doc.root = .mapping o entries) (plain : v.All Node.IsPlain) :
    Style.anchorUsage
        ((Workflow.ofDocument doc).withSource (doc.extend key v more) extras refs) s =
      Style.anchorUsage (Workflow.ofDocument doc) s := by
  have unmarked : ∀ x ∈ v.walk (Pointer.child "" key.value), x.2.origin.anchor = none := by
    intro x hx
    obtain ⟨path, hn, -⟩ := Node.mem_walk_iff.mp hx
    exact (plain path x.2 hn).1
  rw [Style.anchorUsage, Style.anchorUsage, Workflow.source_ofDocument]
  change Style.anchorsFrom [] ((doc.extend key v more).root.walk "") = _
  rw [Document.walk_extend root, ← List.cons_append, anchorsFrom_append_plain unmarked, root,
    Node.walk_eq]
  rfl

theorem keyOrder_extend (root : doc.root = .mapping o entries) (foreign : key.value ∉ rootKeys) :
    Style.keyOrder
        ((Workflow.ofDocument doc).withSource (doc.extend key v more) extras refs) s =
      Style.keyOrder (Workflow.ofDocument doc) s := by
  have keys : Mapping.keys ⟨o, entries ++ [(key, v)]⟩ =
      Mapping.keys ⟨o, entries⟩ ++ [key.value] := by
    simp [Mapping.keys]
  have recognised : Style.recognised rootKeys ⟨o, entries ++ [(key, v)]⟩ =
      Style.recognised rootKeys ⟨o, entries⟩ := by
    rw [Style.recognised, Style.recognised, keys, List.filter_append]
    simp [foreign]
  have after : ((Workflow.ofDocument doc).withSource (doc.extend key v more) extras
      refs).source.root.mapping? = some ⟨o, entries ++ [(key, v)]⟩ := by
    change (doc.extend key v more).root.mapping? = _
    rw [Document.root_extend root]
    rfl
  rw [Style.keyOrder, Style.keyOrder, Workflow.source_ofDocument, after, root]
  simp only [Node.mapping?, Style.orderDrafts, Style.expected, recognised]
  rfl

end Rules

/-- No rule says more or less about the longer document. -/
theorem Catalog.check_extend {doc : Document} {o : Origin} {entries : List (Scalar × Node)}
    {key : Scalar} {v : Node} {more : String} (root : doc.root = .mapping o entries)
    (ended : Text.EndsLine doc.text) (lines : doc.root.All (Node.LinesTo doc.lines.length))
    (foreign : key.value ∉ rootKeys) (plain : v.All Node.IsPlain) (s : Settings) :
    ∀ r ∈ rules, r.check (.ofDocument (doc.extend key v more)) s = r.check (.ofDocument doc) s := by
  obtain ⟨extras, strays, longer, stray⟩ :=
    Workflow.ofDocument_extend v more root foreign
  intro r hr
  rw [longer]
  rcases readsParts_or r hr with parts | ⟨check, hcheck, draws⟩
  · exact parts ..
  · have same : ∀ check ∈ sourceChecks,
        check ((Workflow.ofDocument doc).withSource (doc.extend key v more) extras
          ((Workflow.ofDocument doc).secretRefs ++ strays)) s =
            check (Workflow.ofDocument doc) s := by
      simp only [sourceChecks, List.forall_mem_cons]
      exact ⟨slimRunnerSecrets_extend s ended lines stray, secretScope_extend s ended lines stray,
        jobTimeout_extend s ended lines, blockScalarSingleLine_extend s root ended lines plain,
        anchorUsage_extend s root plain, keyOrder_extend s root foreign, List.forall_mem_nil _⟩
    rw [draws, draws, same check hcheck]

/-- An entry at the end of the root under a key that means nothing and is not there, with whatever
shape and content but anchors and block scalars, and lines at the end of the text leave the review
of the document as it is: its findings and their order, its checklist and texts, and the rules that
broke off. -/
theorem review_unread {doc : Document} {o : Origin} {entries : List (Scalar × Node)}
    (root : doc.root = .mapping o entries)
    (lines : doc.root.All (Node.LinesTo doc.lines.length))
    (ended : doc.text = "" ∨ doc.text.toList.getLast? = some '\n') {key : Scalar}
    (foreign : key.value ∉ rootKeys) (new : key.value ∉ Mapping.keys ⟨o, entries⟩) {v : Node}
    (plain : v.All Node.IsPlain) (more : String) (s : Settings) :
    Review.ofDocument Catalog.rules s (doc.extend key v more) =
      Review.ofDocument Catalog.rules s doc := by
  obtain ⟨extras, strays, longer, -⟩ :=
    Workflow.ofDocument_extend v more root foreign
  have evaluate : ∀ r ∈ Catalog.rules, r.evaluate (.ofDocument (doc.extend key v more)) s =
      r.evaluate (.ofDocument doc) s := by
    intro r hr
    have check : r.check (.ofDocument (doc.extend key v more)) s = r.check (.ofDocument doc) s :=
      Catalog.check_extend root ended lines foreign plain s r hr
    have stamps : ∀ d ∈ (r.check (.ofDocument doc) s).drafts,
        r.stamp (.ofDocument (doc.extend key v more)) d = r.stamp (.ofDocument doc) d := by
      intro d hd
      obtain ⟨path, place, elsewhere⟩ :=
        (Catalog.rules_fit r hr _ s d hd).place.elsewhere root new foreign
      simp only [Rule.stamp, Workflow.source_ofDocument, place,
        Document.orderOf_extend root elsewhere]
    simp only [Rule.evaluate, check, List.map_congr_left stamps]
  have results : Rule.evaluateAll Catalog.rules (.ofDocument (doc.extend key v more)) s =
      Rule.evaluateAll Catalog.rules (.ofDocument doc) s := List.map_congr_left evaluate
  rw [Review.ofDocument, Review.ofDocument, results, longer]
  rfl

/-- A job that may take half an hour. -/
def timed : Document :=
  .ofRoot
    (.mapping ⟨.plain, none, 1, 1⟩ [(⟨"jobs", ⟨.plain, none, 1, 1⟩, 1⟩,
      .mapping ⟨.plain, none, 2, 3⟩ [(⟨"a", ⟨.plain, none, 2, 3⟩, 2⟩,
        .mapping ⟨.plain, none, 3, 5⟩ [(⟨"timeout-minutes", ⟨.plain, none, 3, 5⟩, 3⟩,
          .scalar ⟨"30", ⟨.plain, none, 3, 22⟩, 3⟩)])])])
    "jobs:\n  a:\n    timeout-minutes: 30\n"

theorem review_unread_timed :
    (Review.ofDocument Catalog.rules {} timed).findings.map (·.location) =
      ["/permissions", "/jobs/a/timeout-minutes"] ∧
    timed.root.All (Node.LinesTo timed.lines.length) ∧
    timed.text.toList.getLast? = some '\n' ∧ "env-note" ∉ rootKeys ∧
    (Node.sequence {} [.scalar ⟨"$\x7b\x7b secrets.KEY \x7d\x7d", {}, 4⟩]).All Node.IsPlain ∧
    Review.ofDocument Catalog.rules {} (timed.extend ⟨"env-note", ⟨.plain, none, 4, 1⟩, 4⟩
        (.sequence {} [.scalar ⟨"$\x7b\x7b secrets.KEY \x7d\x7d", {}, 4⟩])
        "env-note: [$\x7b\x7b secrets.KEY \x7d\x7d]  # reviewed\n") =
      Review.ofDocument Catalog.rules {} timed := by
  have lines : timed.root.All (Node.LinesTo timed.lines.length) := by decide +kernel
  have ended : timed.text.toList.getLast? = some '\n' := by decide +kernel
  have foreign : "env-note" ∉ rootKeys := by decide
  have plain : (Node.sequence {} [.scalar ⟨"$\x7b\x7b secrets.KEY \x7d\x7d", {}, 4⟩]).All
      Node.IsPlain := by decide +kernel
  exact ⟨by decide +kernel, lines, ended, foreign, plain,
    review_unread rfl lines (.inr ended) foreign (by decide) plain _ {}⟩

end FlowLint
