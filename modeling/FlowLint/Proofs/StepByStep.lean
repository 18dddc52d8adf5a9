import FlowLint.Proofs.OutsideJob
import FlowLint.Proofs.Table

/-! Rules that speak of one step after the other. No two steps of a document have the same pointer
(`Workflow.pairwise_steps`), so what such a rule finds under a key of a step is what it says about
that step, and it is at most one finding (`Rule.findingsAt_step`). -/

namespace FlowLint

open FlowLint.Tree (Node Mapping Document Pointer.child Pointer.descendant Pointer.isWithin)

theorem Tree.Pointer.child_injective (base : String) : Function.Injective (child base) := by
  intro s t same
  have paths : [s] = [t] :=
    descendant_injective (show descendant base [s] = descendant base [t] from same)
  exact (List.cons.inj paths).1

theorem Tree.Pointer.item_injective (base : String) : Function.Injective (item base) :=
  fun _ _ same => toString_injective (child_injective base same)

/-! ### Steps -/

section

variable {doc : Document} (distinct : doc.root.All Node.HasDistinctChildren)
include distinct

theorem Holds.nodup_keys {p : String} {o : Tree.Origin} {entries : List (Tree.Scalar × Node)}
    (h : Holds doc p (.mapping o entries)) : (Mapping.keys ⟨o, entries⟩).Nodup := by
  obtain ⟨path, there, -⟩ := Node.mem_walk_iff.mp h
  exact Node.hasDistinctChildren_mapping.mp (distinct path _ there)

omit distinct in
theorem Job.pairwise_steps (j : Job) : j.steps.Pairwise fun st st' => st.path ≠ st'.path := by
  unfold Job.steps
  split
  next o items _ =>
    have numbers : items.zipIdx.Pairwise fun x y => x.2 ≠ y.2 := by
      rw [← List.pairwise_map, List.zipIdx_map_snd]
      exact List.nodup_range'
    rw [Job.stepsFrom_eq]
    refine numbers.filterMap _ ?_
    intro x y differ st hst st' hst' same
    obtain ⟨m, -, rfl⟩ := Option.map_eq_some_iff.mp hst
    obtain ⟨m', -, rfl⟩ := Option.map_eq_some_iff.mp hst'
    exact differ (Tree.Pointer.item_injective _ same)
  · exact .nil

namespace Workflow

theorem pairwise_jobs : (ofDocument doc).jobs.Pairwise fun j j' => j.id ≠ j'.id := by
  rcases ofDocument_eq doc with empty | ⟨root, there, -, -, -, jobs, -⟩
  · rw [empty]
    exact .nil
  · rw [jobs]
    unfold Job.ofNode
    split
    next o entries at_jobs =>
      have keys : entries.Pairwise fun e e' => e.1.value ≠ e'.1.value :=
        List.pairwise_map.mp ((there.get? at_jobs).nodup_keys distinct)
      refine keys.filterMap _ ?_
      intro e e' differ j hj j' hj'
      obtain ⟨m, -, rfl⟩ := Option.map_eq_some_iff.mp hj
      obtain ⟨m', -, rfl⟩ := Option.map_eq_some_iff.mp hj'
      exact differ
    · exact .nil

/-- No two steps have the same pointer. -/
theorem pairwise_steps : (ofDocument doc).steps.Pairwise fun x y => x.2.path ≠ y.2.path := by
  rw [steps, List.pairwise_flatMap]
  constructor
  · intro j _
    exact List.pairwise_map.mpr j.pairwise_steps
  · refine (pairwise_jobs distinct).imp_of_mem ?_
    intro j j' hj hj' differ x hx y hy same
    obtain ⟨st, hst, rfl⟩ := List.mem_map.mp hx
    obtain ⟨st', hst', rfl⟩ := List.mem_map.mp hy
    -- A pointer within both jobs would put one job within the other.
    have within : Pointer.isWithin j.path st.path = true := Job.isWithin_steps hst
    have within' : Pointer.isWithin j'.path st.path = true := same ▸ Job.isWithin_steps hst'
    rw [job_path hj] at within
    rw [job_path hj'] at within'
    obtain ⟨apart, apart'⟩ := Tree.Pointer.apart_child "/jobs" differ
    rcases Tree.Pointer.isWithin_or_isWithin within within' with holds | holds
    · rw [apart] at holds
      cases holds
    · rw [apart'] at holds
      cases holds

end Workflow

end

/-- A document with one step, known by something about the step. -/
theorem Workflow.exists_step {β : Type} (text : String) {f : Job × Step → β} {b : β}
    (h : (Tree.load text).toOption.map (fun doc => (ofDocument doc).steps.map f) = some [b]) :
    ∃ doc x, Tree.load text = .ok doc ∧ x ∈ (ofDocument doc).steps ∧ f x = b := by
  obtain ⟨doc, loaded, found⟩ := Tree.exists_of_toOption h
  obtain ⟨x, steps, value⟩ := List.map_eq_singleton_iff.mp found
  exact ⟨doc, x, loaded, steps ▸ List.mem_cons_self, value⟩

/-! ### What a rule says about a step -/

/-- Results whose places differ: those at the place of one element are its own. -/
theorem filter_place_filterMap {α β : Type} {f : α → Option β} {place : β → String}
    {key : α → String} (placed : ∀ x b, f x = some b → place b = key x) {l : List α}
    (apart : l.Pairwise fun x y => key x ≠ key y) {x : α} (hx : x ∈ l) :
    (l.filterMap f).filter (fun b => place b = key x) = (f x).toList := by
  obtain ⟨before, after, rfl⟩ := List.append_of_mem hx
  obtain ⟨-, apart, others⟩ := List.pairwise_append.mp apart
  obtain ⟨later, -⟩ := List.pairwise_cons.mp apart
  have silent (l : List α) (differ : ∀ y ∈ l, key y ≠ key x) :
      (l.filterMap f).filter (fun b => place b = key x) = [] := by
    refine List.filter_eq_nil_iff.mpr ?_
    intro b hb
    obtain ⟨y, hy, found⟩ := List.mem_filterMap.mp hb
    rw [placed y b found, decide_eq_true_iff]
    exact differ y hy
  rw [List.filterMap_append, List.filter_append,
    silent before fun y hy => others y hy x List.mem_cons_self, List.nil_append,
    List.filterMap_cons]
  have nothing_later := silent after fun y hy => (later y hy).symm
  cases here : f x with
  | none => exact nothing_later
  | some b =>
    have own : place b = key x := placed x b here
    show (b :: after.filterMap f).filter _ = [b]
    rw [List.filter_cons_of_pos (by simpa using own), nothing_later]

/-- What a rule finds at a place. -/
def Rule.findingsAt (r : Rule) (w : Workflow) (s : Settings) (p : String) : List Finding :=
  (r.evaluate w s).findings.filter (·.location = p)

namespace Rule

variable {doc : Document} (distinct : doc.root.All Node.HasDistinctChildren) {r : Rule}
  {s : Settings} {f : Job × Step → Option Draft} (key : String)
  (byStep : (r.check (.ofDocument doc) s).drafts = (Workflow.ofDocument doc).steps.filterMap f)
  (placed : ∀ x d, f x = some d → d.location = Pointer.child x.2.path key) {x : Job × Step}
  (hx : x ∈ (Workflow.ofDocument doc).steps)
include distinct byStep placed hx

/-- What a rule finds under a key of a step, if it speaks of each step by itself, under that key. -/
theorem findingsAt_step :
    r.findingsAt (.ofDocument doc) s (Pointer.child x.2.path key) =
      (f x).toList.map (r.stamp (.ofDocument doc)) := by
  have keys : (Workflow.ofDocument doc).steps.Pairwise fun x y =>
      Pointer.child x.2.path key ≠ Pointer.child y.2.path key := by
    refine (Workflow.pairwise_steps distinct).imp ?_
    intro x y differ same
    refine differ ?_
    rw [← Tree.Pointer.parent_child x.2.path key, same, Tree.Pointer.parent_child]
  show ((r.check (.ofDocument doc) s).drafts.map (r.stamp (.ofDocument doc))).filter _ = _
  rw [byStep, List.filter_map]
  exact congrArg (List.map _) (filter_place_filterMap placed keys hx)

theorem findingsAt_step_iff :
    ((∃ g, r.findingsAt (.ofDocument doc) s (Pointer.child x.2.path key) = [g]) ↔ (f x).isSome) ∧
      (r.findingsAt (.ofDocument doc) s (Pointer.child x.2.path key) = [] ↔ ¬ (f x).isSome) := by
  rw [findingsAt_step distinct key byStep placed hx]
  cases f x <;> simp

end Rule

end FlowLint
