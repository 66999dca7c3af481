import Mathlib.Logic.ExistsUnique
import SealedDatagram.Packet.Encode
/-!
How steps compose. A fallible step goes on only from a success, and what it leaves behind is there
for the next one, also after a failure.
-/

namespace SealedDatagram

variable {ε σ τ α β : Type}

theorem Action.bind_apply (x : Action σ α) (f : α → Action σ β) (e : Env σ) :
    (x >>= f) e = f (x e).1 (x e).2 := rfl

theorem Action.getState_apply (e : Env σ) : (getState : Action σ σ) e = (e.state, e) := rfl

namespace Fallible

theorem exec_bind (x : Fallible ε σ α) (f : α → Fallible ε σ β) (e : Env σ) :
    (x >>= f).exec e = match x.exec e with
      | (.ok a, e') => (f a).exec e'
      | (.error err, e') => (.error err, e') := by
  change ExceptT.bindCont f (x.exec e).1 (x.exec e).2 = _
  rcases x.exec e with ⟨_ | _, _⟩ <;> rfl

theorem exec_pure (a : α) (e : Env σ) : (pure a : Fallible ε σ α).exec e = (.ok a, e) := rfl

theorem exec_liftAction (x : Action σ α) (e : Env σ) :
    (liftM x : Fallible ε σ α).exec e = (.ok (x e).1, (x e).2) := rfl

theorem exec_liftExcept (x : Except ε α) (e : Env σ) :
    (liftM x : Fallible ε σ α).exec e = (x, e) := rfl

theorem exec_get (e : Env σ) : (get : Fallible ε σ (Env σ)).exec e = (.ok e, e) := rfl

theorem exec_getState (e : Env σ) :
    (getState : Fallible ε σ σ).exec e = (.ok e.state, e) := rfl

theorem exec_bind_eq_ok {x : Fallible ε σ α} {f : α → Fallible ε σ β} {e e' : Env σ} {b : β} :
    (x >>= f).exec e = (.ok b, e') ↔
      ∃ a e₁, x.exec e = (.ok a, e₁) ∧ (f a).exec e₁ = (.ok b, e') := by
  rw [exec_bind]
  constructor
  · intro h
    rcases hx : x.exec e with ⟨err | a, e₁⟩
    · rw [hx] at h
      cases h
    · rw [hx] at h
      exact ⟨a, e₁, rfl, h⟩
  · rintro ⟨a, e₁, hx, h⟩
    rw [hx]
    exact h

theorem exec_bind_eq_error {x : Fallible ε σ α} {f : α → Fallible ε σ β} {e e' : Env σ} {err : ε} :
    (x >>= f).exec e = (.error err, e') ↔ x.exec e = (.error err, e') ∨
      ∃ a e₁, x.exec e = (.ok a, e₁) ∧ (f a).exec e₁ = (.error err, e') := by
  rw [exec_bind]
  constructor
  · intro h
    rcases hx : x.exec e with ⟨err' | a, e₁⟩
    · rw [hx] at h
      obtain ⟨herr, rfl⟩ := Prod.mk.inj h
      obtain rfl := Except.error.inj herr
      exact .inl rfl
    · rw [hx] at h
      exact .inr ⟨a, e₁, rfl, h⟩
  · rintro (hx | ⟨a, e₁, hx, h⟩)
    · rw [hx]
    · rw [hx]
      exact h

end Fallible

open Fallible

theorem exec_adapt {ε' : Type} (f : ε → ε') (x : Fallible ε σ α) (e : Env σ) :
    Fallible.exec (ExceptT.adapt f x) e = match x.exec e with
      | (.ok a, e') => (.ok a, e')
      | (.error err, e') => (.error (f err), e') := by
  change ((x.exec e).1.mapError f, (x.exec e).2) = _
  rcases x.exec e with ⟨_ | _, _⟩ <;> rfl

theorem exec_tryCatch (x : Fallible ε σ α) (f : ε → Fallible ε σ α) (e : Env σ) :
    Fallible.exec (tryCatch x f) e = match x.exec e with
      | (.ok a, e') => (.ok a, e')
      | (.error err, e') => (f err).exec e' := by
  unfold exec
  simp only [tryCatch, tryCatchThe, MonadExceptOf.tryCatch, ExceptT.tryCatch, ExceptT.run_mk,
    StateT.run_bind]
  change (StateT.run x.run e >>= _ : Id (Except ε α × Env σ)) = _
  rcases StateT.run x.run e with ⟨_ | _, _⟩ <;> rfl

theorem exec_orCipher (x : Fallible CipherError σ α) (e : Env σ) :
    (orCipher x).exec e = match x.exec e with
      | (.ok a, e') => (.ok a, e')
      | (.error err, e') => (.error (.cipher err), e') := by
  unfold orCipher
  rw [exec_adapt]
  rcases x.exec e with ⟨_ | _, _⟩ <;> rfl

/-- A draw takes from the random source and leaves all else; a failing one takes nothing. -/
theorem exec_draw_cases (n : Nat) (e : Env σ) :
    (∃ b entropy, e.entropy.draw? n = some (b.val, entropy) ∧
      (draw n).exec e = (.ok b, { e with entropy })) ∨
    (e.entropy.draw? n = none ∧ (draw n).exec e = (.error .randomSource, e)) := by
  unfold draw
  rw [exec_bind, exec_get]
  dsimp only
  split
  · rename_i b entropy h
    exact .inl ⟨⟨b, Entropy.length_of_draw? h⟩, entropy, h, rfl⟩
  · rename_i h
    exact .inr ⟨h, rfl⟩

theorem exec_drawSalt_cases (e : Env σ) :
    (∃ x entropy, e.entropy.draw? Salt.size = some (x.bytes, entropy) ∧
      drawSalt.exec e = (.ok x, { e with entropy })) ∨
    (e.entropy.draw? Salt.size = none ∧
      drawSalt.exec e = (.error (.cipher .randomSource), e)) := by
  unfold drawSalt
  rw [exec_bind, exec_orCipher]
  rcases exec_draw_cases Salt.size e with ⟨b, entropy, hd, hx⟩ | ⟨hd, hx⟩
  · rw [hx]
    exact .inl ⟨⟨b.val, b.property⟩, entropy, hd, rfl⟩
  · rw [hx]
    exact .inr ⟨hd, rfl⟩

theorem exec_drawSalt {e : Env σ} {x : Salt} {entropy : Entropy}
    (h : e.entropy.draw? Salt.size = some (x.bytes, entropy)) :
    drawSalt.exec e = (.ok x, { e with entropy }) := by
  rcases exec_drawSalt_cases e with ⟨y, entropy', hd, hx⟩ | ⟨hd, -⟩
  · rw [h] at hd
    obtain ⟨hb, rfl⟩ := Prod.mk.inj (Option.some.inj hd)
    rw [hx, Salt.ext hb]
  · rw [h] at hd
    cases hd

theorem exec_generate_cases (e : Env σ) :
    (∃ b key entropy, e.entropy.draw? 32 = some (b, entropy) ∧
      SessionKey.generate.exec e = (.ok key, { e with entropy })) ∨
    (∃ err e', e.entropy.draw? 32 = none ∧ SessionKey.generate.exec e = (.error err, e') ∧
      e'.state = e.state) := by
  unfold SessionKey.generate drawKeyBytes
  rw [exec_bind, exec_tryCatch, exec_adapt]
  rcases exec_draw_cases 32 e with ⟨b, entropy, hd, hx⟩ | ⟨hd, hx⟩
  · rw [hx]
    exact .inl ⟨b.val, _, entropy, hd, rfl⟩
  · rw [hx]
    exact .inr ⟨_, _, hd, rfl, rfl⟩

/-- A step leaves what `view` shows of its surroundings as it was, whether it succeeds or fails. -/
def Fallible.Keeps {V : Type} (view : Env σ → V) (x : Fallible ε σ α) : Prop :=
  ∀ e, view (x.exec e).2 = view e

namespace Fallible.Keeps

variable {V : Type} {view : Env σ → V} {x : Fallible ε σ α} {f : α → Fallible ε σ β}

theorem bind (hx : Keeps view x) (hf : ∀ a, Keeps view (f a)) : Keeps view (x >>= f) := by
  intro e
  rw [exec_bind]
  have hxe := hx e
  rcases hr : x.exec e with ⟨err | a, e₁⟩
  · rw [hr] at hxe
    exact hxe
  · rw [hr] at hxe
    exact (hf a e₁).trans hxe

theorem pure (a : α) : Keeps view (Pure.pure a : Fallible ε σ α) := fun _ => rfl

theorem throw (err : ε) : Keeps view (MonadExcept.throw err : Fallible ε σ α) := fun _ => rfl

theorem liftExcept (x : Except ε α) : Keeps view (liftM x : Fallible ε σ α) := fun _ => rfl

theorem liftAction {a : Action σ α} (ha : ∀ e, view (a e).2 = view e) :
    Keeps view (liftM a : Fallible ε σ α) := ha

theorem drawSalt (hview : ∀ e entropy, view { e with entropy } = view e) :
    Keeps view (drawSalt : Attempt σ Salt) := by
  intro e
  rcases exec_drawSalt_cases e with ⟨x, entropy, -, hx⟩ | ⟨-, hx⟩ <;> rw [hx]
  exact hview e entropy

end Fallible.Keeps

namespace Entropy

variable {n : Nat} {e e' : Entropy} {b : Bytes}

theorem budget_ne_none_of_draw? (h : e.draw? n = none) : e.budget ≠ none := by
  intro hb
  have ha : e.allows n = true := by simp only [allows, hb]
  unfold draw? at h
  rw [if_pos ha] at h
  cases h

theorem budget_eq_none_of_draw? (h : e.draw? n = some (b, e')) (hb : e.budget = none) :
    e'.budget = none := by
  unfold draw? at h
  split at h
  · cases h
    rw [hb]
    rfl
  · cases h

theorem exists_draw? (n : Nat) (hb : e.budget = none) :
    ∃ b e', e.draw? n = some (b, e') ∧ b.length = n ∧ e'.budget = none := by
  cases hd : e.draw? n with
  | none => exact absurd hb (budget_ne_none_of_draw? hd)
  | some be =>
    obtain ⟨b, e'⟩ := be
    exact ⟨b, e', rfl, length_of_draw? hd, budget_eq_none_of_draw? hd hb⟩

theorem draw?_append {a r : Bytes} (h : a.length = n) :
    ({ queued := a ++ r } : Entropy).draw? n = some (a, { queued := r }) := by
  subst h
  simp [draw?, allows, refills]

end Entropy

/-- What a step gives whenever the random source gives `b` next. -/
def GivesFor (step : ∀ σ : Type, Fallible ε σ α) (b : Bytes) (a : α) : Prop :=
  ∀ {σ : Type} (e : Env σ) (entropy : Entropy),
    e.entropy.draw? b.length = some (b, entropy) → (step σ).exec e = (.ok a, { e with entropy })

/-- A step that can fail only for want of what it draws gives something if it draws. -/
theorem exec_eq_ok_iff_of_draw {x : Fallible ε σ α} {e e' : Env σ} {n : Nat} {f : Bytes → α}
    {err : ε} {a : α}
    (h : (∃ b entropy, b.length = n ∧ e.entropy.draw? n = some (b, entropy) ∧
        x.exec e = (.ok (f b), { e with entropy })) ∨
      (e.entropy.draw? n = none ∧ x.exec e = (.error err, e))) :
    x.exec e = (.ok a, e') ↔ ∃ b entropy, e.entropy.draw? n = some (b, entropy) ∧
      a = f b ∧ e' = { e with entropy } := by
  rcases h with ⟨b, entropy, -, hd, hx⟩ | ⟨hd, hx⟩
  · rw [hx, hd, Prod.mk.injEq, Except.ok.injEq]
    constructor
    · rintro ⟨rfl, rfl⟩
      exact ⟨b, entropy, rfl, rfl, rfl⟩
    · rintro ⟨b', entropy', heq, rfl, rfl⟩
      obtain ⟨rfl, rfl⟩ := Prod.mk.inj (Option.some.inj heq)
      exact ⟨rfl, rfl⟩
  · simp [hx, hd]

section
variable {step : ∀ σ : Type, Fallible ε σ α} {n : Nat} {P : Prop} {f : Bytes → α} {a : α}

theorem givesFor_iff (hstep : ∀ {σ : Type} {e e' : Env σ} {a : α},
      (step σ).exec e = (.ok a, e') ↔ P ∧ ∃ b entropy,
        e.entropy.draw? n = some (b, entropy) ∧ a = f b ∧ e' = { e with entropy })
    {b : Bytes} (hb : b.length = n) : GivesFor step b a ↔ P ∧ a = f b := by
  subst hb
  constructor
  · intro h
    have hd := Entropy.draw?_append (a := b) (r := []) rfl
    obtain ⟨hP, b', entropy, hd', heq, -⟩ :=
      hstep.1 (h { state := (), entropy := { queued := b ++ [] } } _ hd)
    obtain ⟨rfl, -⟩ := Prod.mk.inj (Option.some.inj (hd.symm.trans hd'))
    exact ⟨hP, heq⟩
  · rintro ⟨hP, rfl⟩ σ e entropy hd
    exact hstep.2 ⟨hP, b, entropy, hd, rfl, rfl⟩

/-- If what is drawn can be told from what is given, what is given was made of one draw. -/
theorem existsUnique_givesFor_iff (hstep : ∀ {σ : Type} {e e' : Env σ} {a : α},
      (step σ).exec e = (.ok a, e') ↔ P ∧ ∃ b entropy,
        e.entropy.draw? n = some (b, entropy) ∧ a = f b ∧ e' = { e with entropy })
    (hinj : ∀ {b b' : Bytes}, b.length = b'.length → f b = f b' → b = b') :
    (∃! b, b.length = n ∧ GivesFor step b a) ↔ P ∧ ∃ b, b.length = n ∧ a = f b := by
  constructor
  · rintro ⟨b, ⟨hb, hgives⟩, -⟩
    obtain ⟨hP, heq⟩ := (givesFor_iff hstep hb).1 hgives
    exact ⟨hP, b, hb, heq⟩
  · rintro ⟨hP, b, hb, heq⟩
    refine ⟨b, ⟨hb, (givesFor_iff hstep hb).2 ⟨hP, heq⟩⟩, ?_⟩
    rintro b' ⟨hb', hgives⟩
    exact hinj (hb'.trans hb.symm) (((givesFor_iff hstep hb').1 hgives).2.symm.trans heq)

end

end SealedDatagram
