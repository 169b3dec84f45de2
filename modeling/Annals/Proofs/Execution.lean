import Annals.Store.Transaction

namespace Annals

open Annals.Log Annals.Sql Annals.Stream

namespace Access

variable {σ α β : Type}

theorem run_bind (access : Access σ α) (next : α → Access σ β) (s : σ) :
    (access >>= next).run s =
      match access.run s with
      | (.ok a, s') => (next a).run s'
      | (.error f, s') => (.error f, s') := by
  change (ExceptT.bindCont next ((ExceptT.run access) s).1)
    ((ExceptT.run access) s).2 = _
  rcases (ExceptT.run access) s with ⟨_ | _, _⟩ <;> rfl

theorem run_bind_ok {access : Access σ α} {s s' : σ} {a : α}
    (h : access.run s = (.ok a, s')) (next : α → Access σ β) :
    (access >>= next).run s = (next a).run s' := by
  rw [run_bind, h]

theorem run_get_bind (next : σ → Access σ β) (s : σ) :
    ((get : Access σ σ) >>= next).run s = (next s).run s := run_bind_ok rfl next

@[simp] theorem run_ofExcept (e : Except Failure α) (s : σ) :
    (ofExcept e : Access σ α).run s = (e, s) := by
  cases e <;> rfl

end Access

namespace Action

variable {σ ω α β : Type}

def exec (work : Action σ ω α) (w : World σ ω) : Except Stop α × World σ ω :=
  work.run w

theorem eq_of_exec {m n : Action σ ω α} (h : ∀ w, exec m w = exec n w) :
    m = n := funext h

@[simp] theorem exec_pure (a : α) (w : World σ ω) :
    exec (pure a : Action σ ω α) w = (.ok a, w) := rfl

@[simp] theorem exec_throw (stop : Stop) (w : World σ ω) :
    exec (throw stop : Action σ ω α) w = (.error stop, w) := rfl

@[simp] theorem exec_fail (f : Failure) (w : World σ ω) :
    exec (fail f : Action σ ω α) w = (.error (.failed f), w) := rfl

@[simp] theorem exec_observe (m : Action σ ω α) (w : World σ ω) :
    exec (observe m) w = (.ok (exec m w).1, (exec m w).2) := rfl

theorem exec_bind (m : Action σ ω α) (k : α → Action σ ω β) (w : World σ ω) :
    exec (m >>= k) w =
      match exec m w with
      | (.ok a, w') => exec (k a) w'
      | (.error stop, w') => (.error stop, w') := by
  unfold exec
  change (ExceptT.bindCont k ((ExceptT.run m) w).1) ((ExceptT.run m) w).2 = _
  rcases (ExceptT.run m) w with ⟨_ | _, _⟩ <;> rfl

theorem exec_bind_ok {m : Action σ ω α} {w w' : World σ ω} {a : α}
    (h : exec m w = (.ok a, w')) (k : α → Action σ ω β) :
    exec (m >>= k) w = exec (k a) w' := by
  rw [exec_bind, h]

theorem exec_bind_error {m : Action σ ω α} {w w' : World σ ω} {stop : Stop}
    (h : exec m w = (.error stop, w')) (k : α → Action σ ω β) :
    exec (m >>= k) w = (.error stop, w') := by
  rw [exec_bind, h]

theorem exec_bind_eq_ok {m : Action σ ω α} {k : α → Action σ ω β}
    {w w'' : World σ ω} {b : β} :
    exec (m >>= k) w = (.ok b, w'') ↔
      ∃ a w', exec m w = (.ok a, w') ∧ exec (k a) w' = (.ok b, w'') := by
  rw [exec_bind]
  rcases exec m w with ⟨stop | a, w'⟩
  · simp
  · constructor
    · intro h
      exact ⟨a, w', rfl, h⟩
    · rintro ⟨a', v, h, hk⟩
      cases h
      exact hk

theorem exec_map_eq_ok {m : Action σ ω α} {f : α → β} {w w' : World σ ω}
    {b : β} :
    exec (f <$> m) w = (.ok b, w') ↔ ∃ a, exec m w = (.ok a, w') ∧ f a = b := by
  rw [map_eq_pure_bind, exec_bind_eq_ok]
  constructor
  · rintro ⟨a, v, hm, hf⟩
    cases hf
    exact ⟨a, hm, rfl⟩
  · rintro ⟨a, hm, rfl⟩
    exact ⟨a, w', hm, rfl⟩

@[simp] theorem exec_ofExcept (e : Except Failure α) (w : World σ ω) :
    exec (ofExcept e : Action σ ω α) w = (e.mapError .failed, w) := by
  cases e <;> rfl

theorem exec_ofExcept_eq_ok {e : Except Failure α} {w w' : World σ ω} {a : α} :
    exec (ofExcept e : Action σ ω α) w = (.ok a, w') ↔ e = .ok a ∧ w' = w := by
  cases e with
  | error f =>
      constructor
      · intro h
        cases h
      · rintro ⟨⟨⟩, -⟩
  | ok b =>
      constructor
      · intro h
        cases h
        exact ⟨rfl, rfl⟩
      · rintro ⟨⟨⟩, rfl⟩
        rfl

@[simp] theorem exec_ofOutcome (e : Except Stop α) (w : World σ ω) :
    exec (ofOutcome e : Action σ ω α) w = (e, w) := by
  cases e <;> rfl

theorem exists_stop {after : Except Stop α × World σ ω}
    (h : after.1.isOk = false) :
    ∃ stop w', after = (.error stop, w') := by
  rcases after with ⟨stop | a, w'⟩
  · exact ⟨stop, w', rfl⟩
  · cases h

theorem exec_mapM_cons_eq_ok {f : α → Action σ ω β} {a : α} {as : List α}
    {bs : List β} {w w'' : World σ ω} :
    exec ((a :: as).mapM f) w = (.ok bs, w'') ↔
      ∃ b w' rest, exec (f a) w = (.ok b, w') ∧
        exec (as.mapM f) w' = (.ok rest, w'') ∧
        bs = b :: rest := by
  rw [List.mapM_cons, exec_bind_eq_ok]
  constructor
  · rintro ⟨b, w', hb, hrest⟩
    obtain ⟨rest, v, hmap, hpure⟩ := exec_bind_eq_ok.mp hrest
    cases hpure
    exact ⟨b, w', rest, hb, hmap, rfl⟩
  · rintro ⟨b, w', rest, hb, hmap, rfl⟩
    exact ⟨b, w', hb, exec_bind_eq_ok.mpr ⟨rest, w'', hmap, rfl⟩⟩

theorem exec_mapM_stopped {f : α → Action σ ω β} {as : List α} {a : α}
    {done : List β} {w w' w'' : World σ ω} {stop : Stop}
    (has : exec (as.mapM f) w = (.ok done, w'))
    (ha : exec (f a) w' = (.error stop, w'')) (bs : List α) :
    exec ((as ++ a :: bs).mapM f) w = (.error stop, w'') := by
  rw [List.mapM_append, exec_bind_ok has, List.mapM_cons]
  exact exec_bind_error (exec_bind_error ha _) _

end Action

namespace World

variable {σ ω : Type}

def noting (w : World σ ω) (es : List Event) : World σ ω :=
  { w with store := { w.store with events := w.store.events ++ es } }

def withSession (w : World σ ω) (s : σ) : World σ ω :=
  { w with store := { w.store with session := s } }

def withWriting (w : World σ ω) (b : Bool) : World σ ω :=
  { w with store := { w.store with writing := b } }

theorem noting_nil (w : World σ ω) : w.noting [] = w := by
  simp [noting]

@[simp] theorem noting_writing (w : World σ ω) (es : List Event) :
    (w.noting es).store.writing = w.store.writing := rfl

end World

namespace Store

variable {σ ω α : Type}

@[simp] theorem exec_see (f : Store σ → α) (w : World σ ω) :
    (see f : Action σ ω α).exec w = (.ok (f w.store), w) := rfl

@[simp] theorem exec_change (f : Store σ → Store σ) (w : World σ ω) :
    (change f : Action σ ω Unit).exec w =
      (.ok (), { w with store := f w.store }) := rfl

@[simp] theorem exec_report (e : Event) (w : World σ ω) :
    (report e : Action σ ω Unit).exec w = (.ok (), w.noting [e]) := rfl

theorem exec_use (access : Access σ α) (w : World σ ω) :
    (use access : Action σ ω α).exec w =
      ((access.run w.store.session).1.mapError .failed,
        w.withSession (access.run w.store.session).2) := rfl

theorem exec_use_eq_ok {access : Access σ α} {w w' : World σ ω} {a : α} :
    (use access : Action σ ω α).exec w = (.ok a, w') ↔
      ∃ s, access.run w.store.session = (.ok a, s) ∧ w' = w.withSession s := by
  rw [exec_use]
  rcases access.run w.store.session with ⟨f | b, s⟩
  · constructor
    · intro h
      cases h
    · rintro ⟨s', h, -⟩
      cases h
  · constructor
    · intro h
      cases h
      exact ⟨s, rfl, rfl⟩
    · rintro ⟨s', h, rfl⟩
      cases h
      rfl

theorem use_bind {β : Type} (access : Access σ α) (next : α → Access σ β) :
    (use (access >>= next) : Action σ ω β) = use access >>= fun a =>
      use (next a) := by
  apply Action.eq_of_exec
  intro w
  rw [Action.exec_bind, exec_use, exec_use]
  rw [Access.run_bind]
  rcases access.run w.store.session with ⟨f | a, s⟩
  · rfl
  · rfl

theorem use_ofExcept (e : Except Failure α) :
    (use (Access.ofExcept e) : Action σ ω α) = Action.ofExcept e := by
  cases e <;> rfl

theorem exec_perform_eq_ok [Session σ] {s : Statement} {params : List Value}
    {w w' : World σ ω} :
    (perform s params).exec w = (.ok (), w') ↔
    ∃ n, (execute s params).exec w = (.ok n, w') := by
  refine Action.exec_map_eq_ok.trans ?_
  constructor
  · rintro ⟨n, h, -⟩
    exact ⟨n, h⟩
  · rintro ⟨n, h⟩
    exact ⟨n, h, rfl⟩

end Store

end Annals
