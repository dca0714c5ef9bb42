import RequestFlow.Handler

/-!
# Reading the visits of a run

A pipeline that is marked with visits leaves a journal of where its control went. Forgetting the
marks of such a run gives back the plain run (`Handler.unmark_handle`), so whatever the journal says
is said about the run that answers requests: recording neither adds nor removes an event, takes no
time and changes no result.

The second half gives the views of a journal in which the theorems on pipelines are stated: which
parts were invoked, which layers and actions were entered with which context, and the log of entries
and returns.
-/

namespace RequestFlow

namespace Layer

variable {μ : Type} {announce : Return → Marked μ Unit} {ahead : Ahead}
variable {inner : Context → Marked μ Handled} {c : Context}

theorem unmark_answerFailures (handler : String) (r : Marked μ Handled) :
    (answerFailures handler r).unmark = answerFailures handler r.unmark := by
  rw [answerFailures, Marked.unmark_bind]
  refine congrArg (r.unmark >>= ·) (funext fun result => ?_)
  cases result <;> rfl

theorem unmark_contain (handler : String) (caught : Panic → Marked μ Unit) (r : Marked μ Handled) :
    (contain handler caught r).unmark =
      contain handler (fun p => (caught p).unmark) r.unmark := by
  simp only [contain, unmark_answerFailures, Marked.unmark_rescue, Marked.unmark_bind,
    Marked.unmark_pure]

theorem unmark_observe (handler : String) (r : Marked μ Handled) :
    (observe handler r).unmark = observe handler r.unmark := by
  simp only [observe, Marked.unmark_within, Marked.unmark_bind, Marked.unmark_pure,
    Run.unmark_notice]

theorem unmark_returning (r : Marked μ Handled) :
    (returning announce r).unmark = returning (fun back => (announce back).unmark) r.unmark := by
  simp only [returning, Marked.unmark_bind, Marked.unmark_pure]

/-- Every layer does the same with a recorded chain as with a plain one. -/
theorem unmark_around (l : Layer) :
    (l.around announce ahead inner c).unmark =
      l.around (fun back => (announce back).unmark) ahead (fun c => (inner c).unmark) c := by
  cases l with
  | hook enter =>
      rw [around, around, Marked.unmark_bind, Marked.unmark_ofRun, Marked.ofRun_plain]
      refine congrArg (enter ahead c >>= ·) (funext fun move => ?_)
      cases move with
      | answer result => rfl
      | delegate c wayOut =>
          simp only [Marked.unmark_bind, unmark_returning, Marked.unmark_ofRun,
            Marked.ofRun_plain]
  | trace => simp only [around, unmark_observe, unmark_returning]
  | catchAll enabled =>
      cases enabled with
      | true => simp only [around, unmark_contain, unmark_returning]
      | false => simp only [around, unmark_returning]
  | timeout limit =>
      simp only [around, Marked.unmark_limit, unmark_returning, Marked.unmark_bind]
      rfl

end Layer

section Unmark

variable {μ : Type} [Records μ]

theorem LayerEntry.unmark_visit (e : LayerEntry) (ahead : Ahead)
    (inner : Context → Marked μ Handled) (c : Context) :
    (e.visit ahead inner c).unmark = e.visit ahead (fun c => (inner c).unmark) c := by
  have back : (fun b => (e.resume b : Marked μ Unit).unmark) = e.resume :=
    funext fun b => Visit.unmark_record (.resume e b)
  rw [visit, Visit.unmark_enclose, Layer.unmark_around, back]
  rfl

theorem Action.unmark_visit (a : Action) (handler : String) (c : Context) :
    (a.visit handler c : Marked μ Handled).unmark = a.visit handler c := by
  rw [visit, Visit.unmark_enclose, Marked.unmark_ofRun, visit, Marked.ofRun_plain]

/-- Recording a walk does not change it. -/
theorem Next.unmark_run (n : Next) (c : Context) :
    (n.run c : Marked μ Handled).unmark = n.run c := by
  induction remaining : n.layers.length - n.depth generalizing n c with
  | zero =>
      have outside : ¬ n.depth < n.layers.length := by omega
      rw [run, run, dif_neg outside, dif_neg outside, Action.unmark_visit]
  | succ k ih =>
      have inside : n.depth < n.layers.length := by omega
      have further : n.inner.layers.length - n.inner.depth = k := by
        simp only [inner]
        omega
      have chain : (fun c => (n.inner.run c : Marked μ Handled).unmark) = n.inner.run :=
        funext fun c => ih n.inner c further
      rw [run, run, dif_pos inside, dif_pos inside, LayerEntry.unmark_visit, chain]

theorem GuardEntry.unmark_visit (g : GuardEntry) (c : Context) :
    (g.visit c : Marked μ (Context × Flow)).unmark = g.visit c := by
  rw [visit, Visit.unmark_enclose, Marked.unmark_ofRun, visit, Marked.ofRun_plain]

theorem Guard.unmark_checkAll (handler : String) (guards : List GuardEntry) (c : Context) :
    (checkAll handler guards c : Marked μ (Context ⊕ Outcome)).unmark =
      checkAll handler guards c := by
  induction guards generalizing c with
  | nil => rfl
  | cons g rest ih =>
      simp only [checkAll, Marked.unmark_bind, GuardEntry.unmark_visit]
      refine congrArg _ (funext fun verdict => ?_)
      cases verdict.2 with
      | proceed => exact ih verdict.1
      | halt response => rfl

/-- Recording a run does not change it. -/
theorem Handler.unmark_handle (h : Handler) (c : Context) :
    (h.handle c : Marked μ Handled).unmark = h.handle c := by
  simp only [handle, Marked.unmark_bind, Guard.unmark_checkAll]
  refine congrArg _ (funext fun checked => ?_)
  cases checked with
  | inl c => exact Next.unmark_run _ c
  | inr outcome => rfl

end Unmark

/-! ### Views of a journal -/

namespace Visit

/-- What a pipeline is made of. -/
inductive Part where
  | guard (g : GuardEntry)
  | layer (e : LayerEntry)
  | action

/-- An entry of the log in which layers are seen to nest. -/
inductive Turn where
  | entered (e : LayerEntry)
  | acted
  | left (e : LayerEntry)

/-- The part of a pipeline that a visit invokes. -/
def invokes? : Visit → Option Part
  | .check g _ => some (.guard g)
  | .enter e _ => some (.layer e)
  | .call _ => some .action
  | _ => none

/-- A visit that invokes a layer or the action. -/
def arrival? : Visit → Option Visit
  | .enter e c => some (.enter e c)
  | .call c => some (.call c)
  | _ => none

/-- The guard that a visit checks. -/
def checks? : Visit → Option GuardEntry
  | .check g _ => some g
  | _ => none

/-- The guard that lets the run go on at a visit. -/
def clears? : Visit → Option GuardEntry
  | .decide g .proceed => some g
  | _ => none

/-- The layer that a visit enters or leaves, or the action that it calls. -/
def turn? : Visit → Option Turn
  | .enter e _ => some (.entered e)
  | .call _ => some .acted
  | .leave e _ => some (.left e)
  | _ => none

/-- Whether a visit tells of a chain that panicked or ran out of time. -/
def isCut : Visit → Bool
  | .resume _ (.panic _) => true
  | .resume _ .expiry => true
  | _ => false

end Visit

/-- A run in which nothing panics and no time limit expires. A panic is either caught by some layer,
which is recorded, or it ends the run. -/
structure Calm {α : Type} (r : Marked Visit α) : Prop where
  returns : ∃ a, r.ending = .ok a
  uncut : ∀ v ∈ r.marks, v.isCut = false

end RequestFlow
