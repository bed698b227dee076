import PgHa.Effect.Wp

/-!
# One level of a design and the next

An interface is given by what its operations do (`step`) where they may be
performed (`check`); its implementation performs the operations of another
interface, on states of its own.  `Refines` says, operation by operation, that
the implementation does what the interface says; `Refines.wp_lower` carries what
is known of a program over the interface to the program over its implementation.
-/

namespace Effect

variable {Op Op' : Type} {Ret : Op → Type} {Ret' : Op' → Type} {ε α σ τ : Type}

/-- The implementation of an operation has ended as a step of the interface. -/
def carriedOut (rel : σ → τ → Prop) (step : σ → Event Ret ε → σ → Prop) (s : σ) (op : Op)
    (outcome : Outcome ε (Ret op)) (t' : τ) : Prop :=
  ∃ answer s', outcome = Prog.answered answer ∧ step s ⟨op, answer⟩ s' ∧ rel s' t'

/-- Every operation of the interface is carried out by its implementation, wherever it may be
performed: from related states to related states. -/
structure Refines (rel : σ → τ → Prop) (check : σ → Op → Prop) (step : σ → Event Ret ε → σ → Prop)
    (transformer : Transformer Ret' ε τ) (impl : (op : Op) → Prog Ret' ε (Ret op)) : Prop where
  monotone : transformer.Monotone
  carries : ∀ op s t, rel s t → check s op →
    (impl op).wp transformer (carriedOut rel step s op) t

/-- What a program does over the interface, it does over the implementation; by induction on the
program, one operation after the other. -/
theorem Refines.wp_lower {rel : σ → τ → Prop} {check : σ → Op → Prop}
    {step : σ → Event Ret ε → σ → Prop} {transformer : Transformer Ret' ε τ}
    {impl : (op : Op) → Prog Ret' ε (Ret op)} (h : Refines rel check step transformer impl)
    {program : Prog Ret ε α} {post : Outcome ε α → σ → Prop} {s : σ} {t : τ} (hrel : rel s t)
    (hwp : program.wp (guarded check step) post s) :
    (program.lower impl).wp transformer
      (fun outcome t' => ∃ s', rel s' t' ∧ post outcome s') t := by
  induction program generalizing s t with
  | call op next ih =>
      rw [Prog.lower, Prog.wp_bind, Prog.wp_attempt]
      refine Prog.wp_mono h.monotone ?_ (h.carries op s t hrel hwp.1)
      rintro outcome t' ⟨answer, s', rfl, hstep, hrel'⟩
      have hnext := ih answer hrel' (hwp.2 answer s' hstep)
      cases answer with
      | ok value => exact hnext
      | error error => exact hnext
  | _ => exact ⟨s, hrel, hwp⟩

end Effect
