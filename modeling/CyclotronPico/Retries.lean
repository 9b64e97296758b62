import Mathlib.Data.List.Forall2

/-!
# Delivery at least once

A sender that does not learn what became of a request sends it again. What
arrives for a request is a list of attempts: some take effect, at least one
does, and the others do nothing. When the effect of each request is
idempotent, delivering a list of requests so comes to the same as delivering
each of them once, however often each was sent.
-/

namespace CyclotronPico.Retries

variable {σ ι κ : Type}

/-- What arrives for one request whose effect is `f`. -/
structure Attempts (step : σ → κ → σ) (f : σ → σ) (tries : List κ) : Prop where
  /-- Each attempt has the effect or none. -/
  each : ∀ k∈tries,(∀ s,step s k=f s) ∨ ∀ s,step s k=s
  /-- One of them has the effect. -/
  once : ∃ k∈tries,∀ s,step s k=f s

/-- Attempts after the effect was had change nothing. -/
theorem foldl_settled {step : σ → κ → σ} {f : σ → σ} {tries : List κ}
    (heach : ∀ k∈tries,(∀ s,step s k=f s) ∨ ∀ s,step s k=s) {s : σ} (hs : f s=s) :
    tries.foldl step s=s := by
  induction tries with
  | nil => rfl
  | cons k tries ih =>
    have hrest := ih fun j hj => heach j (List.mem_cons_of_mem k hj)
    have hstep : step s k=s := by
      rcases heach k List.mem_cons_self with h | h
      · exact (h s).trans hs
      · exact h s
    rw [List.foldl_cons,hstep,hrest]

/-- The attempts at a request have its effect once. -/
theorem Attempts.foldl_eq {step : σ → κ → σ} {f : σ → σ} (hidem : ∀ s,f (f s)=f s)
    {tries : List κ} (h : Attempts step f tries) (s : σ) : tries.foldl step s=f s := by
  obtain ⟨heach,k,hk,heffect⟩ := h
  induction tries generalizing s with
  | nil => cases hk
  | cons j tries ih =>
    have hothers : ∀ i∈tries,(∀ s,step s i=f s) ∨ ∀ s,step s i=s :=
      fun i hi => heach i (List.mem_cons_of_mem j hi)
    rw [List.foldl_cons]
    rcases heach j List.mem_cons_self with h | h
    · rw [h s,foldl_settled hothers (hidem s)]
    · have hlater : k∈tries ∨ ∀ s,f s=s := by
        rcases List.mem_cons.mp hk with rfl | hin
        · exact .inr fun s => (heffect s).symm.trans (h s)
        · exact .inl hin
      rw [h s]
      rcases hlater with hin | hnone
      · exact ih s hothers hin
      · rw [foldl_settled hothers (hnone s),hnone s]

/-- Requests that are each delivered at least once have the effects of each
of them once, in their order. -/
theorem foldl_retried {step : σ → κ → σ} {act : ι → σ → σ} (hidem : ∀ i s,act i (act i s)=act i s)
    {requests : List ι} {tries : List (List κ)}
    (h : List.Forall₂ (fun i ks => Attempts step (act i) ks) requests tries) (s : σ) :
    tries.flatten.foldl step s=requests.foldl (fun s i => act i s) s := by
  induction h generalizing s with
  | nil => rfl
  | @cons i ks requests tries hfirst _ ih =>
    rw [List.flatten_cons,List.foldl_append,List.foldl_cons,hfirst.foldl_eq (hidem i) s,ih]

end CyclotronPico.Retries
