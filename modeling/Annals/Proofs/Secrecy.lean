import Annals.Config.Reader
import Annals.Store.Opening

namespace Annals

open Annals.Log Annals.Toml
open Annals.Sql (Dialect)

/-- Two attempts that fail alike, or succeed with related results. -/
inductive Agree {ε α β : Type} (R : α → β → Prop) :
    Except ε α → Except ε β → Prop
  | ok {a : α} {b : β} (h : R a b) : Agree R (.ok a) (.ok b)
  | error (e : ε) : Agree R (.error e) (.error e)

namespace Agree

variable {ε α β γ δ : Type} {R : α → β → Prop} {S : γ → δ → Prop}
    {e : Except ε α} {e' : Except ε β}

theorem bind (h : Agree R e e') {f : α → Except ε γ} {g : β → Except ε δ}
    (hnext : ∀ a b, R a b → Agree S (f a) (g b)) :
    Agree S (e >>= f) (e' >>= g) := by
  cases h with
  | ok hab => exact hnext _ _ hab
  | error failure => exact .error failure

theorem bind_same (e : Except ε α) {f : α → Except ε γ} {g : α → Except ε δ}
    (hnext : ∀ a, Agree S (f a) (g a)) : Agree S (e >>= f) (e >>= g) := by
  cases e with
  | ok a => exact hnext a
  | error failure => exact .error failure

theorem mapError (h : Agree R e e') {ζ : Type} (f : ε → ζ) :
    Agree R (e.mapError f) (e'.mapError f) := by
  cases h with
  | ok hab => exact .ok hab
  | error failure => exact .error (f failure)

theorem map_eq (h : Agree R e e') {f : α → γ} {g : β → γ}
    (hsame : ∀ a b, R a b → f a = g b) :
    e.map f = e'.map g := by
  cases h with
  | ok hab => exact congrArg Except.ok (hsame _ _ hab)
  | error failure => rfl

end Agree

namespace Config

/-- What is shown of a configuration: the rendering, the descriptor, the outcome
of the validation, and what comes of opening a store, with the events that are
logged. -/
structure Shown where
  rendering : String
  descriptor : String
  validation : Except Failure Unit
  opening : (String → Bool) → Except Failure (Store Database) × List Event

def shown (c : Config) : Shown where
  rendering := c.render
  descriptor := c.descriptor
  validation := c.validate
  opening reachable := Store.fromConfig reachable c

/-- What is shown of the configuration in a text, or why there is none. -/
def shownOfText (s : String) : Except ConfigError Shown := (ofText s).map shown

/-- The two differ in the password at most, and if one of them has one then both
do. -/
structure Alike (c c' : Config) : Prop where
  same : c' = { c with password := c'.password }
  isSome : c'.password.isSome = c.password.isSome

theorem Alike.shown_eq {c c' : Config} (h : Alike c c') :
    c.shown = c'.shown := by
  obtain ⟨dialect, path, host, port, database, user, password, options⟩ := c
  obtain ⟨hsame, hisSome⟩ := h
  rw [hsame]
  cases hp : c'.password <;> cases password <;> simp [hp] at hisSome <;> rfl

end Config

namespace Config.Draft

/-- Two drafts of configurations that are alike. -/
structure Alike (d d' : Draft) : Prop where
  dialect : d'.dialect? = d.dialect?
  config : d.config.Alike d'.config

def takeAll (d : Draft) (entries : List (String × Item)) :
    Except String Draft :=
  entries.foldlM (fun d (name, item) => d.take name item) d

theorem take_alike {d d' : Draft} (h : Alike d d') (name : String)
    (item : Item) :
    Agree Alike (d.take name item) (d'.take name item) := by
  obtain ⟨dialect?, dialect, path, host, port, database, user,
      password, options⟩ := d
  obtain ⟨dialect?', dialect', path', host', port', database', user',
      password', options'⟩ := d'
  obtain ⟨hdialect, hsame, hisSome⟩ := h
  cases hdialect
  cases hsame
  unfold Draft.take
  dsimp only
  split
  · refine .bind_same _ fun name => ?_
    cases Dialect.select name with
    | ok dialect => exact .ok ⟨rfl, rfl, hisSome⟩
    | error f => exact .error _
  · exact .bind_same _ fun _ => .ok ⟨rfl, rfl, hisSome⟩
  · exact .bind_same _ fun _ => .ok ⟨rfl, rfl, hisSome⟩
  · exact .bind_same _ fun _ => .ok ⟨rfl, rfl, hisSome⟩
  · exact .bind_same _ fun _ => .ok ⟨rfl, rfl, hisSome⟩
  · exact .bind_same _ fun _ => .ok ⟨rfl, rfl, hisSome⟩
  · exact .bind_same _ fun _ => .ok ⟨rfl, rfl, rfl⟩
  · exact .bind_same _ fun _ => .ok ⟨rfl, rfl, hisSome⟩
  · exact .bind_same _ fun _ => .ok ⟨rfl, rfl, hisSome⟩
  · exact .ok ⟨rfl, rfl, hisSome⟩

theorem takeAll_alike {d d' : Draft} (h : Alike d d')
    (entries : List (String × Item)) :
    Agree Alike (d.takeAll entries) (d'.takeAll entries) := by
  induction entries generalizing d d' with
  | nil => exact .ok h
  | cons entry entries ih =>
      obtain ⟨name, item⟩ := entry
      exact (take_alike h name item).bind fun _ _ hnext => ih hnext

theorem exists_string {item : Item} (h : item.typeName = "string") :
    ∃ s, item = .string s := by
  cases item with
  | string s => exact ⟨s, rfl⟩
  | _ => simp [Item.typeName] at h

theorem take_passwords (d : Draft) (p q : String) :
    Agree Alike (d.take "password" (.string p))
      (d.take "password" (.string q)) :=
  .ok ⟨rfl, rfl, rfl⟩

theorem take_password_refused (d : Draft) {item : Item}
    (h : item.typeName ≠ "string") :
    d.take "password" item =
      .error ("invalid type: " ++ describe item ++ ", expected a string") := by
  have hmessage : "invalid type: " ++ describe item ++ ", expected " ++
      "a string" =
      "invalid type: " ++ describe item ++ ", expected a string" :=
    String.append_assoc
  rw [← hmessage]
  cases item with
  | string s => exact absurd rfl h
  | _ => rfl

def finish (d : Draft) : Except String Config :=
  match d.dialect? with
  | some dialect => .ok { d.config with dialect }
  | none => .error "missing field \x60dialect\x60"

theorem finish_alike {d d' : Draft} (h : Alike d d') :
    Agree Config.Alike d.finish d'.finish := by
  obtain ⟨hdialect, hsame, hisSome⟩ := h
  unfold finish
  rw [hdialect]
  cases d.dialect? with
  | none => exact .error _
  | some dialect => exact .ok ⟨by rw [hsame], hisSome⟩

end Config.Draft

namespace Config

/-- A configuration whose parameters suit the dialect. -/
def validated (c : Config) : Except ConfigError Config :=
  match c.validate with
  | .ok () => .ok c
  | .error f => .error (.refused f)

theorem validated_alike {c c' : Config} (h : c.Alike c') :
    Agree Alike c.validated c'.validated := by
  have hsame : c.validate = c'.validate := congrArg Shown.validation h.shown_eq
  unfold validated
  rw [← hsame]
  cases c.validate with
  | ok => exact .ok h
  | error f => exact .error _

section Documents

variable {s s' : String} {t t' : Table} {before after : List (String × Item)}
    {x y : Item}

theorem ofText_eq (ht : Table.ofText s = some t)
    (hentries : t.entries = before ++ ("password", x) :: after) :
    ofText s = (do
      let d ← ({} : Draft).takeAll before
      let d ← d.take "password" x
      let d ← d.takeAll after
      d.finish : Except String Config).mapError .misfit >>= validated := by
  have htable : ofTable t = (do
      let d ← ({} : Draft).takeAll before
      let d ← d.take "password" x
      let d ← d.takeAll after
      d.finish) := by
    have hfinish : ofTable t = ({} : Draft).takeAll t.entries >>=
        Draft.finish := rfl
    rw [hfinish, hentries]
    unfold Draft.takeAll
    simp only [List.foldlM_append, List.foldlM_cons, bind_assoc]
  unfold ofText
  rw [ht, ← htable]
  dsimp only
  cases ofTable t with
  | error message => rfl
  | ok c =>
      change _ = c.validated
      unfold validated
      rfl

theorem shown_eq_of_texts (ht : Table.ofText s = some t)
    (ht' : Table.ofText s' = some t') {p q : String}
    (hentries : t.entries = before ++ ("password", .string p) :: after)
    (hentries' : t'.entries = before ++ ("password", .string q) :: after) :
    shownOfText s = shownOfText s' := by
  have hconfigs : Agree Alike (ofText s) (ofText s') := by
    rw [ofText_eq ht hentries, ofText_eq ht' hentries']
    refine .bind (.mapError (.bind_same _ fun d => ?_) _) fun c c' =>
      validated_alike
    refine (Draft.take_passwords d p q).bind fun d d' h => ?_
    exact (Draft.takeAll_alike h after).bind fun d d' => Draft.finish_alike
  exact hconfigs.map_eq fun c c' => Alike.shown_eq

theorem ofText_of_earlier (ht : Table.ofText s = some t)
    (hentries : t.entries = before ++ ("password", x) :: after)
    {message : String}
    (hbefore : ({} : Draft).takeAll before = .error message) :
    ofText s = .error (.misfit message) := by
  rw [ofText_eq ht hentries, hbefore]
  rfl

theorem ofText_refused (ht : Table.ofText s = some t)
    (hentries : t.entries = before ++ ("password", x) :: after) {d : Draft}
    (hbefore : ({} : Draft).takeAll before = .ok d)
    (hx : x.typeName ≠ "string") :
    ofText s =
      .error
        (.misfit ("invalid type: " ++ describe x ++
          ", expected a string")) := by
  rw [ofText_eq ht hentries, hbefore]
  change ((d.take "password" x >>= _).mapError _ >>= _) = _
  rw [Draft.take_password_refused d hx]
  rfl

/-- Of two documents that differ in the password only, where the two passwords
are of one type, both have configurations or neither has.  All that is shown of
them is the same just if the passwords are texts, or an entry in front of them
does not fit, or the two are described in the same words; otherwise the message
quotes the password. -/
theorem shown_of_passwords (ht : Table.ofText s = some t)
    (ht' : Table.ofText s' = some t')
    (hentries : t.entries = before ++ ("password", x) :: after)
    (hentries' : t'.entries = before ++ ("password", y) :: after)
    (htype : x.typeName = y.typeName) :
    (shownOfText s).isOk = (shownOfText s').isOk ∧
      (shownOfText s = shownOfText s' ↔ x.typeName = "string" ∨
        (∃ message, ({} : Draft).takeAll before = .error message) ∨
          describe x = describe y) ∧
      (x.typeName ≠ "string" → (∃ d, ({} : Draft).takeAll before = .ok d) →
        ofText s = .error
          (.misfit ("invalid type: " ++ describe x ++ ", expected a string")) ∧
        ofText s' = .error
          (.misfit
            ("invalid type: " ++ describe y ++ ", expected a string"))) := by
  by_cases hstring : x.typeName = "string"
  · obtain ⟨p, rfl⟩ := Draft.exists_string hstring
    obtain ⟨q, rfl⟩ := Draft.exists_string (htype.symm.trans hstring)
    have hshown := shown_eq_of_texts ht ht' hentries hentries'
    refine ⟨by rw [hshown], ?_, ?_⟩
    · constructor
      · intro _
        exact .inl hstring
      · intro _
        exact hshown
    · intro hne
      exact absurd hstring hne
  have hstring' : y.typeName ≠ "string" := htype ▸ hstring
  rcases hbefore : ({} : Draft).takeAll before with message | d
  · have hshown : shownOfText s = shownOfText s' := by
      unfold shownOfText
      rw [ofText_of_earlier ht hentries hbefore,
        ofText_of_earlier ht' hentries' hbefore]
    refine ⟨by rw [hshown], ?_, ?_⟩
    · constructor
      · intro _
        exact .inr (.inl ⟨message, rfl⟩)
      · intro _
        exact hshown
    · rintro - ⟨d, hd⟩
      cases hd
  · have hrefused := ofText_refused ht hentries hbefore hstring
    have hrefused' := ofText_refused ht' hentries' hbefore hstring'
    refine ⟨?_, ?_, fun _ _ => ⟨hrefused, hrefused'⟩⟩
    · unfold shownOfText
      rw [hrefused, hrefused']
      rfl
    · unfold shownOfText
      rw [hrefused, hrefused']
      constructor
      · intro hsame
        have hmessage := ConfigError.misfit.inj (Except.error.inj hsame)
        exact .inr
          (.inr ((String.append_right_inj _).mp
            ((String.append_left_inj _).mp hmessage)))
      · rintro (hx | ⟨message, hmessage⟩ | hdescribe)
        · exact absurd hx hstring
        · cases hmessage
        · rw [hdescribe]

end Documents

def secretText (item : String) : String :=
  "dialect = \"sqlite\"\npath = \":memory:\"\npassword = " ++ item

/-- The entries of a table, if it has three and all are texts. -/
def texts? (t : Table) : Option (List (String × String)) :=
  match t.entries with
  | [(m, .string a), (n, .string b), (o, .string c)] =>
    some [(m, a), (n, b), (o, c)]
  | _ => none

theorem entries_of_texts {t : Table} {texts : List (String × String)}
    (h : texts? t = some texts) :
    t.entries = texts.map fun e => (e.1, .string e.2) := by
  unfold texts? at h
  split at h
  case h_1 heq =>
    cases h
    exact heq
  case h_2 => cases h

theorem exists_secret (item secret : String)
    (h : (Table.ofText (secretText item)).bind texts? =
      some [("dialect", "sqlite"), ("path", ":memory:"),
        ("password", secret)]) :
    ∃ t, Table.ofText (secretText item) = some t ∧
      t.entries =
        [("dialect", .string "sqlite"), ("path", .string ":memory:")] ++
          ("password", .string secret) :: [] := by
  obtain ⟨t, ht, htexts⟩ := Option.bind_eq_some_iff.mp h
  exact ⟨t, ht, entries_of_texts htexts⟩

theorem shown_of_secrets :
    (∃ t t', Table.ofText (secretText "\"hunter2\"") = some t ∧
      Table.ofText (secretText "'s3cret'") = some t' ∧
      t.entries = [("dialect", .string "sqlite"),
        ("path", .string ":memory:")] ++ ("password", .string "hunter2") :: [] ∧
      t'.entries = [("dialect", .string "sqlite"),
        ("path", .string ":memory:")] ++ ("password", .string "s3cret") :: []) ∧
      shownOfText (secretText "\"hunter2\"") =
        shownOfText (secretText "'s3cret'") := by
  obtain ⟨t, ht, hentries⟩ :=
    exists_secret "\"hunter2\"" "hunter2" (by decide +kernel)
  obtain ⟨t', ht', hentries'⟩ :=
    exists_secret "'s3cret'" "s3cret" (by decide +kernel)
  exact ⟨⟨t, t', ht, ht', hentries, hentries'⟩,
    (shown_of_passwords ht ht' hentries hentries' rfl).2.1.mpr (.inl rfl)⟩

/-- It is not so that two passwords of one type are never told apart: an integer
is quoted. -/
theorem shown_ne_of_integers :
    ¬ ∀ n m : Int, shownOfText (secretText (toString n)) =
      shownOfText (secretText (toString m)) := by
  intro hclaim
  have hsame := congrArg (fun outcome => match outcome with
    | .ok _ => none
    | .error e => some e) (hclaim 12345 54321)
  revert hsame
  decide +kernel

end Config

end Annals
