import Molten.Control.Bailout

namespace Molten.Control

universe u v

/-! Two programs over different states that leave the same way and keep their
states related: triples of one program read off those of another. -/

section Simulation

variable {σ : Type u} {τ : Type v}

def Simulation (pre : σ → τ → Prop) (program : Run σ) (program' : Run τ)
    (post : Exit → σ → τ → Prop) : Prop :=
  ∀ s t, pre s t →
    (program s).2 = (program' t).2 ∧
      post (program s).2 (program s).1 (program' t).1

namespace Simulation

variable {pre : σ → τ → Prop} {post : Exit → σ → τ → Prop}

theorem weaken {pre' : σ → τ → Prop} {post' : Exit → σ → τ → Prop}
    {program : Run σ} {program' : Run τ}
    (h : Simulation pre program program' post)
    (hpre : ∀ s t, pre' s t → pre s t)
    (hpost : ∀ exit s t, post exit s t → post' exit s t) :
    Simulation pre' program program' post' :=
  fun s t hst => (h s t (hpre s t hst)).imp_right (hpost _ _ _)

theorem act {change : σ → σ} {change' : τ → τ}
    (h : ∀ s t, pre s t → post .returned (change s) (change' t)) :
    Simulation pre (Run.act change) (Run.act change') post :=
  fun s t hst => ⟨rfl, h s t hst⟩

theorem bailout (h : ∀ s t, pre s t → post .bailed s t) :
    Simulation pre (Run.bailout : Run σ) (Run.bailout : Run τ) post :=
  fun s t hst => ⟨rfl, h s t hst⟩

theorem andThen (mid : σ → τ → Prop) {first second : Run σ}
    {first' second' : Run τ}
    (hfirst : Simulation pre first first' fun exit s t =>
      match exit with
      | .returned => mid s t
      | .bailed => post .bailed s t)
    (hsecond : Simulation mid second second' post) :
    Simulation pre (first.andThen second) (first'.andThen second') post := by
  intro s t hst
  obtain ⟨hexits, hpost⟩ := hfirst s t hst
  cases hexit : (first s).2 with
  | returned =>
      rw [hexit] at hexits hpost
      rw [Run.andThen_of_returned hexit, Run.andThen_of_returned hexits.symm]
      exact hsecond _ _ hpost
  | bailed =>
      rw [hexit] at hexits hpost
      rw [Run.andThen_of_bailed hexit, Run.andThen_of_bailed hexits.symm]
      exact ⟨rfl, hpost⟩

theorem ensuring {body cleanup : Run σ} {body' cleanup' : Run τ}
    {left : Exit → σ → τ → Prop}
    (hbody : Simulation pre body body' left)
    (hcleanup : ∀ exit, Simulation (left exit) cleanup cleanup'
      fun exit' => post (exit'.andThen exit)) :
    Simulation pre (body.ensuring cleanup) (body'.ensuring cleanup') post := by
  intro s t hst
  obtain ⟨hexit, hleft⟩ := hbody s t hst
  obtain ⟨hexit', hpost⟩ := hcleanup _ _ _ hleft
  rw [Run.ensuring_state, Run.ensuring_state, Run.ensuring_exit,
    Run.ensuring_exit]
  exact ⟨by rw [hexit, hexit'], hpost⟩

theorem reading {program : σ → Run σ} {program' : τ → Run τ}
    (h : ∀ start start', pre start start' →
      Simulation (fun s t => s = start ∧ t = start' ∧ pre s t)
        (program start) (program' start') post) :
    Simulation pre (Run.reading program) (Run.reading program') post :=
  fun s t hst => h s t hst s t ⟨rfl, rfl, hst⟩

/-! What only one side reads or changes. -/

theorem readingLeft {program : σ → Run σ} {program' : Run τ}
    (h : ∀ start start', pre start start' →
      Simulation (fun s t => s = start ∧ t = start' ∧ pre s t)
        (program start) program' post) :
    Simulation pre (Run.reading program) program' post :=
  fun s t hst => h s t hst s t ⟨rfl, rfl, hst⟩

theorem actLeft {mid : σ → τ → Prop} {change : σ → σ} {second : Run σ}
    {program' : Run τ} (h : ∀ s t, pre s t → mid (change s) t)
    (hsecond : Simulation mid second program' post) :
    Simulation pre ((Run.act change).andThen second) program' post :=
  fun s t hst => hsecond _ _ (h s t hst)

end Simulation

/-- Related before, related after, and out the same way. -/
def Lockstep (rel : σ → τ → Prop) (program : Run σ) (program' : Run τ) :
    Prop :=
  Simulation rel program program' fun _ => rel

namespace Lockstep

variable {rel : σ → τ → Prop}

theorem act {change : σ → σ} {change' : τ → τ}
    (h : ∀ s t, rel s t → rel (change s) (change' t)) :
    Lockstep rel (Run.act change) (Run.act change') :=
  Simulation.act h

theorem skip : Lockstep rel (Run.skip : Run σ) (Run.skip : Run τ) :=
  act fun _ _ hst => hst

theorem bailout : Lockstep rel (Run.bailout : Run σ) (Run.bailout : Run τ) :=
  Simulation.bailout fun _ _ hst => hst

theorem andThen {first second : Run σ} {first' second' : Run τ}
    (hfirst : Lockstep rel first first')
    (hsecond : Lockstep rel second second') :
    Lockstep rel (first.andThen second) (first'.andThen second') :=
  Simulation.andThen rel
    (hfirst.weaken (fun _ _ hst => hst) fun exit _ _ hst => by
      cases exit <;> exact hst)
    hsecond

end Lockstep

end Simulation

end Molten.Control
