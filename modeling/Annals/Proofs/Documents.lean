import Annals.Json.Printer
import Annals.Json.Reader
import Annals.Proofs.Numerals
import Mathlib.Data.List.Forall2

namespace Annals.Json

open Annals.Number Annals.Text

namespace Reader

variable {α β : Type} {reader : Reader α} {text middle rest : List Char}
    {a : α} {b : β}

/-- A reader takes a value off the front of a text and leaves the rest. -/
def Takes (reader : Reader α) (text : List Char) (a : α)
    (rest : List Char) : Prop :=
  ∀ place, ∃ place', reader.run.run ⟨text, place⟩ = (.ok a, ⟨rest, place'⟩)

theorem Takes.bind {next : α → Reader β} (h : Takes reader text a middle)
    (hnext : Takes (next a) middle b rest) :
    Takes (reader >>= next) text b rest := by
  intro place
  obtain ⟨place₁, hfirst⟩ := h place
  obtain ⟨place₂, hsecond⟩ := hnext place₁
  refine ⟨place₂, ?_⟩
  rw [ExceptT.run_bind, StateT.run_bind, hfirst]
  exact hsecond

theorem takes_pure (a : α) (text : List Char) : Takes (pure a) text a text :=
  fun place => ⟨place, rfl⟩

theorem Takes.map (h : Takes reader text a rest) (f : α → β) :
    Takes (f <$> reader) text (f a) rest := by
  rw [map_eq_pure_bind]
  exact h.bind (takes_pure (f a) rest)

theorem takes_peek (text : List Char) : Takes peek text text.head? text :=
  fun place => ⟨place, rfl⟩

theorem takes_advance (c : Char) (rest : List Char) :
    Takes advance (c :: rest) () rest :=
  fun place => ⟨place.after c, rfl⟩

theorem takes_room (text : List Char) :
    Takes room text (text.length + 1) text :=
  fun place => ⟨place, rfl⟩

theorem takes_get {next : Source → Reader α} (h : ∀ place, ∃ place',
    (next ⟨text, place⟩).run.run ⟨text, place⟩ = (.ok a, ⟨rest, place'⟩)) :
    Takes (get >>= next) text a rest := h

theorem takes_take {c : Char} {condition : Char → Bool} (h : condition c = true)
    (atEnd otherwise : Problem) :
    Takes (take condition atEnd otherwise) (c :: rest) c rest := by
  unfold take
  refine (takes_peek _).bind ?_
  dsimp only [List.head?_cons]
  rw [if_pos h]
  exact (takes_advance c rest).bind (takes_pure c rest)

theorem Takes.tryCatch (h : Takes reader text a rest)
    (handle : Fault → Reader α) :
    Takes (tryCatch reader handle) text a rest := by
  intro place
  obtain ⟨place', hread⟩ := h place
  refine ⟨place', ?_⟩
  rw [ExceptT.run_tryCatch, StateT.run_bind, hread]
  rfl

theorem Takes.placed (h : Takes reader text a rest) :
    Takes (placed reader) text a rest :=
  h.tryCatch _

theorem Takes.enclosed {close : Reader Unit} (h : Takes reader text a middle)
    (hclose : Takes close middle () rest) :
    Takes (enclosed reader close) text a rest := by
  unfold Reader.enclosed
  refine ((h.map Except.ok).tryCatch _).bind ?_
  exact hclose.bind (takes_pure a rest)

theorem takes_peekToken {c : Char} (h : isSpace c = false) (rest : List Char) :
    Takes peekToken (c :: rest) (some c) (c :: rest) := by
  intro place
  refine ⟨place, ?_⟩
  have hskip : skipSpaceFrom (c :: rest) place = ⟨c :: rest, place⟩ := by
    unfold skipSpaceFrom
    rw [h]
    rfl
  change (Except.ok (skipSpaceFrom (c :: rest) place).rest.head?,
    skipSpaceFrom (c :: rest) place) = _
  rw [hskip]
  rfl

theorem takes_peekToken_nil : Takes peekToken [] none [] :=
  fun place => ⟨place, rfl⟩

theorem takes_word (cs rest : List Char) :
    Takes (word cs) (cs ++ rest) () rest := by
  induction cs with
  | nil => exact takes_pure () rest
  | cons c cs ih =>
      unfold word
      have hsame : (fun d => d == c) c = true := beq_self_eq_true c
      exact (takes_take hsame .endInValue .expectedIdent).bind ih

def controlDigits (n : Nat) : List Char :=
  List.replicate (4 - (hexDigits n).length) '0' ++ (hexDigits n).toList

theorem controlDigits_hexadecimal : ∀ n < 32, (controlDigits n).length = 4 ∧
    (controlDigits n).all isHexDigit ∧
      (controlDigits n).foldl (· + ·.utf8Size) 0 = 4 ∧
      valueOf 16 (controlDigits n) = n := by
  decide +kernel

theorem takes_fourDigits {digits : List Char} (hlength : digits.length = 4)
    (hall : digits.all isHexDigit)
    (hbytes : digits.foldl (· + ·.utf8Size) 0 = 4) (rest : List Char) :
    Takes hexEscape (digits ++ rest) (valueOf 16 digits) rest := by
  have htake : (digits ++ rest).take 4 = digits := List.take_left' hlength
  have hdrop : (digits ++ rest).drop 4 = rest := List.drop_left' hlength
  unfold hexEscape
  refine takes_get fun place => ⟨⟨place.line, place.column + 4⟩, ?_⟩
  dsimp only
  rw [htake, hbytes, hdrop, if_neg (by decide), hall, hlength]
  rfl

theorem takes_hexEscape {n : Nat} (h : n < 32) (rest : List Char) :
    Takes hexEscape (controlDigits n ++ rest) n rest := by
  obtain ⟨hlength, hall, hbytes, hvalue⟩ := controlDigits_hexadecimal n h
  have htaken := takes_fourDigits hlength hall hbytes rest
  rwa [hvalue] at htaken

theorem takes_control {c : Char} (h : c.toNat < 32) (rest : List Char) :
    Takes (escape false) ('u' :: controlDigits c.toNat ++ rest) c rest := by
  unfold escape
  refine (takes_take (by decide) _ _).bind ?_
  refine (takes_hexEscape h rest).bind ?_
  rw [if_neg (by decide)]
  dsimp only
  rw [if_neg (by omega), if_pos (by omega), Char.ofNat_toNat]
  exact takes_pure c rest

theorem takes_shortEscape {c mark : Char} (h : shortEscape? c = some mark)
    (rest : List Char) :
    Takes (escape false) (mark :: rest) c rest := by
  unfold escape
  unfold shortEscape? at h
  split at h <;> cases h
  all_goals exact (takes_take (by decide) _ _).bind (takes_pure _ _)

/-- A character is read back from the way in which it is written. -/
theorem takes_escaped {c : Char} {acc : List Char} {fuel : Nat} {s : String}
    (h : Takes (stringBody.go false (c :: acc) fuel) middle s rest) :
    Takes (stringBody.go false acc (fuel + 1)) ((escapeChar c).toList ++ middle)
      s rest := by
  unfold stringBody.go escapeChar
  cases hshort : shortEscape? c with
  | some mark =>
      dsimp only
      rw [String.toList_ofList]
      refine (takes_peek _).bind ((takes_advance '\\' _).bind (Takes.bind ?_ h))
      exact takes_shortEscape hshort middle
  | none =>
      dsimp only
      split_ifs with hcontrol
      · have htext : ("\\u" ++ String.ofList
            (List.replicate (4 - (hexDigits c.toNat).length) '0') ++
            hexDigits c.toNat).toList = '\\' :: 'u' :: controlDigits
              c.toNat := by
          unfold controlDigits
          simp only [String.toList_append, String.toList_ofList,
            List.append_assoc]
          rfl
        rw [htext]
        refine (takes_peek _).bind
          ((takes_advance '\\' _).bind (Takes.bind ?_ h))
        exact takes_control hcontrol middle
      · have htext : c.toString.toList = [c] := String.toList_singleton c
        rw [htext]
        refine (takes_peek _).bind ?_
        dsimp only [List.singleton_append, List.head?_cons]
        split
        case h_1 heq => cases heq
        case h_2 heq =>
          cases heq
          cases hshort
        case h_3 heq =>
          cases heq
          cases hshort
        case h_4 heq =>
          cases heq
          refine (takes_advance c middle).bind ?_
          rw [if_neg hcontrol]
          exact h

theorem takes_characters (cs acc : List Char) {fuel : Nat}
    (h : cs.length < fuel) (rest : List Char) :
    Takes (stringBody.go false acc fuel)
      (cs.flatMap (fun c => (escapeChar c).toList) ++ '"' :: rest)
      (String.ofList (acc.reverse ++ cs)) rest := by
  induction cs generalizing acc fuel with
  | nil =>
      obtain ⟨fuel, rfl⟩ := Nat.exists_eq_add_one.mpr h
      unfold stringBody.go
      refine (takes_peek _).bind ?_
      rw [List.append_nil]
      exact (takes_advance '"' rest).bind (takes_pure _ rest)
  | cons c cs ih =>
      obtain ⟨fuel, rfl⟩ := Nat.exists_eq_add_one.mpr (Nat.zero_lt_of_lt h)
      rw [List.flatMap_cons, List.append_assoc]
      refine takes_escaped ?_
      have hrest := ih (c :: acc) (Nat.lt_of_succ_lt_succ h)
      rwa [List.reverse_cons, List.append_assoc] at hrest

theorem length_characters (cs : List Char) :
    cs.length ≤ (cs.flatMap fun c => (escapeChar c).toList).length := by
  induction cs with
  | nil => exact Nat.le_refl 0
  | cons c cs ih =>
      have hone : 0 < (escapeChar c).toList.length := by
        unfold escapeChar
        split
        · simp
        · split_ifs <;> simp
      rw [List.flatMap_cons, List.length_append, List.length_cons]
      omega

theorem toList_renderString (s : String) : (renderString s).toList =
    '"' :: (s.toList.flatMap (fun c => (escapeChar c).toList) ++ ['"']) := by
  unfold renderString
  simp only [String.toList_append, String.toList_join, List.flatMap_map]
  rfl

theorem takes_stringBody (s : String) (rest : List Char) :
    Takes (stringBody false)
      (s.toList.flatMap (fun c => (escapeChar c).toList) ++ '"' :: rest) s
        rest := by
  unfold stringBody
  refine takes_get fun place => ?_
  have hfuel : s.toList.length <
      (s.toList.flatMap (fun c => (escapeChar c).toList) ++
        '"' :: rest).length + 1 := by
    have hle := length_characters s.toList
    rw [List.length_append]
    omega
  have hread := takes_characters s.toList [] hfuel rest
  rw [List.reverse_nil, List.nil_append, String.ofList_toList] at hread
  exact hread place

/-- A value ends where a document ends, or a comma or a closing bracket
stands. -/
def Ends (rest : List Char) : Prop :=
  ∀ c ∈ rest.head?, c = ',' ∨ c = ']' ∨ c = '\x7d'

theorem Ends.closed (h : Ends rest) : Closed rest := by
  intro c hc
  rcases h c hc with rfl | rfl | rfl <;> decide

theorem ends_nil : Ends [] := nofun

theorem ends_cons {c : Char} (h : c = ',' ∨ c = ']' ∨ c = '\x7d')
    (rest : List Char) :
    Ends (c :: rest) := by
  rintro _ ⟨⟩
  exact h

theorem le_ofDigitChars (digits : List Char) (n : Nat) :
    n ≤ Nat.ofDigitChars 10 digits n := by
  rw [Nat.ofDigitChars_eq_ofDigitChars_zero]
  have hpow : 0 < 10 ^ digits.length := Nat.pow_pos (by decide)
  have hle := Nat.le_mul_of_pos_left n hpow
  omega

theorem go_digits {digits : List Char} (hall : ∀ c ∈ digits, c.isDigit = true)
    (hrest : Closed rest) {value : Nat} (count : Nat)
    (hmax : Nat.ofDigitChars 10 digits value ≤ maxSignificand) :
    takeDigits.go value count (digits ++ rest) =
      (Nat.ofDigitChars 10 digits value, count + digits.length, false) := by
  induction digits generalizing value count with
  | nil =>
      cases rest with
      | nil => rfl
      | cons c rest =>
          change takeDigits.go value count (c :: rest) = _
          unfold takeDigits.go
          rw [hrest c rfl]
          rfl
  | cons c digits ih =>
      have hc := hall c List.mem_cons_self
      have hvalue : 10 * value + (c.toNat - '0'.toNat) =
          value * 10 + digitValue c := by
        rw [digitValue_eq hc, Nat.mul_comm]
      rw [Nat.ofDigitChars_cons, hvalue] at hmax ⊢
      have hle := le_ofDigitChars digits (value * 10 + digitValue c)
      rw [List.cons_append]
      unfold takeDigits.go
      rw [if_pos hc, if_neg (by omega),
        ih (fun d hd => hall d (List.mem_cons_of_mem c hd)) (count + 1) hmax,
        List.length_cons, Nat.add_assoc, Nat.add_comm 1]

theorem takes_takeDigits {digits : List Char}
    (hall : ∀ c ∈ digits, c.isDigit = true) (hrest : Closed rest) {value : Nat}
    (hmax : Nat.ofDigitChars 10 digits value ≤ maxSignificand) :
    Takes (takeDigits value) (digits ++ rest)
      (Nat.ofDigitChars 10 digits value, digits.length, false) rest := by
  unfold takeDigits
  refine takes_get fun place => ⟨⟨place.line, place.column + digits.length⟩, ?_⟩
  dsimp only
  rw [go_digits hall hrest 0 hmax, Nat.zero_add]
  dsimp only
  rw [List.drop_left]
  rfl

theorem head?_toDigits {n : Nat} (h : 0 < n) :
    (Nat.toDigits 10 n).head? ≠ some '0' := by
  induction n using Nat.strongRecOn with
  | ind n ih =>
      rw [Nat.toDigits_eq_if (by decide)]
      split
      case isTrue hlt =>
        have hdigit : ∀ n < 10, 0 < n → Nat.digitChar n ≠ '0' := by decide
        intro heq
        exact hdigit n hlt h (Option.some.inj heq)
      case isFalse hge =>
        rw [List.head?_append_of_ne_nil _ Nat.toDigits_ne_nil]
        apply ih (n / 10) <;> omega

theorem exists_firstDigit (n : Nat) :
    ∃ c digits, Nat.toDigits 10 n = c :: digits ∧
    c.isDigit = true ∧ (∀ d ∈ digits, d.isDigit = true) ∧
      Nat.ofDigitChars 10 digits (digitValue c) = n ∧
      (c = '0' → digits = []) := by
  have hvalue := Nat.ofDigitChars_ten_toDigits (n := n)
  have hall := isDigit_toDigits n
  obtain ⟨c, digits, hdigits⟩ :=
    List.exists_cons_of_ne_nil (numeral_toDigits n).nonempty
  refine ⟨c, digits, hdigits, ?_⟩
  rw [hdigits] at hvalue hall
  have hc := hall c List.mem_cons_self
  rw [Nat.ofDigitChars_cons, Nat.mul_zero, Nat.zero_add,
    ← digitValue_eq hc] at hvalue
  refine ⟨hc, fun d hd => hall d (List.mem_cons_of_mem c hd), hvalue, ?_⟩
  rintro rfl
  have hzero : n = 0 := by
    by_contra hne
    apply head?_toDigits (Nat.pos_of_ne_zero hne)
    rw [hdigits]
    rfl
  rw [hzero] at hdigits
  exact (List.cons.inj hdigits).2.symm

theorem takes_peekDigit (text : List Char) :
    ∃ digit?, Takes peekDigit text digit? text ∧
      (Closed text → digit? = none) := by
  cases text with
  | nil => exact ⟨none, (takes_peek []).bind (takes_pure none []), fun _ => rfl⟩
  | cons c text =>
      refine ⟨if c.isDigit then some (digitValue c) else none,
        (takes_peek _).bind (takes_pure _ _), fun hclosed => ?_⟩
      rw [hclosed c rfl]
      rfl

/-- What is behind a numeral that ends does not belong to it. -/
theorem takes_ending {next : Option Char → Reader α} (hrest : Ends rest)
    (h : ∀ ahead, ahead ≠ some '.' → ahead ≠ some 'e' → ahead ≠ some 'E' →
      Takes (next ahead) rest a rest) : Takes (peek >>= next) rest a rest := by
  refine (takes_peek rest).bind (h _ ?_ ?_ ?_)
  all_goals
    intro hahead
    rcases hrest _ hahead with heq | heq | heq <;> cases heq

theorem takes_number {n : Nat} (positive : Bool) (hmax : n ≤ maxSignificand)
    (hrest : Ends rest)
    (hnegative : positive = false → n ≠ 0 ∧ (int64? (-n)).isSome) :
    Takes (number positive) (Nat.toDigits 10 n ++ rest)
      (.integer (if positive then n else -n)) rest := by
  obtain ⟨c, digits, hdigits, hc, hall, hvalue, hlone⟩ := exists_firstDigit n
  obtain ⟨digit?, hpeek, hnone⟩ := takes_peekDigit (digits ++ rest)
  have hzero : ¬(c = '0' ∧ digit?.isSome) := by
    rintro ⟨rfl, hsome⟩
    rw [hlone rfl] at hnone
    rw [hnone hrest.closed] at hsome
    cases hsome
  have htake :=
    takes_takeDigits hall hrest.closed (hvalue ▸ hmax : _ ≤ maxSignificand)
  rw [hvalue] at htake
  rw [hdigits]
  unfold number
  refine (takes_take hc _ _).bind (hpeek.bind ?_)
  rw [if_neg hzero]
  refine htake.bind ?_
  dsimp only
  rw [if_neg (by decide)]
  refine takes_ending hrest fun ahead hpoint hsmall hlarge => ?_
  split
  · exact absurd rfl hpoint
  · exact absurd rfl hsmall
  · exact absurd rfl hlarge
  · cases positive with
    | true => exact takes_pure _ rest
    | false =>
        obtain ⟨hne, hfits⟩ := hnegative rfl
        rw [if_neg Bool.false_ne_true,
          if_neg (by simp [hne, Option.isSome_iff_ne_none.mp hfits])]
        exact takes_pure _ rest

/-- What a value begins with is neither white space nor the end of a list. -/
def Begins (text : List Char) : Prop :=
  ∃ c ∈ text.head?, isSpace c = false ∧ c ≠ ']'

def separator (first : Bool) : List Char := if first then [] else [',']

theorem Begins.append (h : Begins text) (rest : List Char) :
    Begins (text ++ rest) := by
  obtain ⟨c, hc, hplain⟩ := h
  exact ⟨c, List.mem_head?_append_of_mem_head? hc, hplain⟩

theorem takes_peekToken_of_begins (h : Begins text) :
    ∃ c, Takes peekToken text (some c) text ∧ c ≠ ']' := by
  obtain ⟨c, hc, hspace, hend⟩ := h
  obtain ⟨rest, rfl⟩ := List.head?_eq_some_iff.mp hc
  exact ⟨c, takes_peekToken hspace rest, hend⟩

theorem takes_nextItem (first : Bool) (h : Begins text) :
    Takes (nextItem first) (separator first ++ text) true text := by
  obtain ⟨c, htake, hend⟩ := takes_peekToken_of_begins h
  unfold nextItem
  cases first with
  | true =>
      refine htake.bind ?_
      split
      case h_1 heq => cases heq
      case h_2 heq => exact absurd (Option.some.inj heq) hend
      case h_3 => exact takes_pure true text
  | false =>
      refine (takes_peekToken (by decide) text).bind ?_
      refine (takes_advance ',' text).bind (htake.bind ?_)
      split
      case h_1 heq => exact absurd (Option.some.inj heq) hend
      case h_2 => exact takes_pure true text
      case h_3 heq => cases heq

theorem takes_nextItem_end (first : Bool) (rest : List Char) :
    Takes (nextItem first) (']' :: rest) false (']' :: rest) :=
  (takes_peekToken (by decide) rest).bind (takes_pure false _)

theorem takes_endList (rest : List Char) :
    Takes endList (']' :: rest) () rest :=
  (takes_peekToken (by decide) rest).bind (takes_advance ']' rest)

theorem takes_nextKey (first : Bool) (name : String) (rest : List Char) :
    Takes (nextKey first)
      (separator first ++ ((renderString name).toList ++ rest)) (some name)
      rest := by
  have hquote : (renderString name).toList ++ rest =
      '"' :: (name.toList.flatMap (fun c => (escapeChar c).toList) ++
        '"' :: rest) := by
    rw [toList_renderString, List.cons_append, List.append_assoc,
      List.singleton_append]
  have hpeek := takes_peekToken (show isSpace '"' = false from rfl)
  have hbody : Takes (do return some (← stringBody false)) _ (some name) rest :=
    (takes_stringBody name rest).bind (takes_pure (some name) rest)
  rw [hquote]
  unfold nextKey
  cases first with
  | true =>
      exact (hpeek _).bind
        ((takes_pure _ _).bind ((takes_advance '"' _).bind hbody))
  | false =>
      refine (takes_peekToken (by decide) _).bind
        ((takes_advance ',' _).bind ?_)
      exact (hpeek _).bind ((takes_advance '"' _).bind hbody)

theorem takes_nextKey_end (first : Bool) (rest : List Char) :
    Takes (nextKey first) ('\x7d' :: rest) none ('\x7d' :: rest) :=
  (takes_peekToken (by decide) rest).bind (takes_pure none _)

theorem takes_colon (rest : List Char) : Takes colon (':' :: rest) () rest :=
  (takes_peekToken (by decide) rest).bind (takes_advance ':' rest)

theorem takes_endObject (rest : List Char) :
    Takes endObject ('\x7d' :: rest) () rest :=
  (takes_peekToken (by decide) rest).bind (takes_advance '\x7d' rest)

/-- A text is read as a value wherever a value may end. -/
def ReadsBack (reader : Reader α) (text : List Char) (a : α) : Prop :=
  ∀ rest, Ends rest → Takes reader (text ++ rest) a rest

def itemsText (first : Bool) : List Json → List Char
  | [] => []
  | json :: items =>
    separator first ++ (json.render.toList ++ itemsText false items)

theorem toList_renderItems (items : List Json) :
    (renderItems items).toList = itemsText true items := by
  have htail (json : Json) (items : List Json) :
      (renderItems (json :: items)).toList = json.render.toList ++
        itemsText false items := by
    induction items generalizing json with
    | nil => exact (List.append_nil _).symm
    | cons next items ih =>
        change (json.render ++ "," ++ renderItems (next :: items)).toList = _
        rw [String.toList_append, String.toList_append, ih next,
          List.append_assoc]
        rfl
  cases items with
  | nil => rfl
  | cons json items => exact htail json items

theorem length_le_itemsText (first : Bool) (items : List Json)
    (h : ∀ json ∈ items, Begins json.render.toList) :
    items.length ≤ (itemsText first items).length := by
  induction items generalizing first with
  | nil => exact Nat.le_refl 0
  | cons json items ih =>
      obtain ⟨c, hc, -⟩ := h json List.mem_cons_self
      obtain ⟨rest, htext⟩ := List.head?_eq_some_iff.mp hc
      have hle := ih false fun json hjson =>
        h json (List.mem_cons_of_mem _ hjson)
      unfold itemsText
      rw [htext]
      simp only [List.length_append, List.length_cons]
      omega

theorem ends_itemsText (items : List Json) (rest : List Char) :
    Ends (itemsText false items ++ ']' :: rest) := by
  cases items with
  | nil => exact ends_cons (by decide) rest
  | cons json items => exact ends_cons (by decide) _

theorem takes_items {item : Reader α} {items : List Json} {as : List α}
    (h : List.Forall₂ (fun json a => Begins json.render.toList ∧
      ReadsBack item json.render.toList a)
      items as) {fuel : Nat} (hfuel : items.length < fuel) (first : Bool)
        (rest : List Char) :
    Takes (Reader.items item first fuel) (itemsText first items ++ ']' :: rest)
      as (']' :: rest) := by
  induction h generalizing fuel first with
  | nil =>
      obtain ⟨fuel, rfl⟩ := Nat.exists_eq_add_one.mpr hfuel
      exact (takes_nextItem_end first rest).bind (takes_pure [] _)
  | @cons json a items as hhead htail ih =>
      obtain ⟨fuel, rfl⟩ := Nat.exists_eq_add_one.mpr (Nat.zero_lt_of_lt hfuel)
      obtain ⟨hbegins, hread⟩ := hhead
      unfold itemsText Reader.items
      rw [List.append_assoc, List.append_assoc]
      refine (takes_nextItem first (hbegins.append _)).bind ?_
      refine (hread _ (ends_itemsText items rest)).bind ?_
      exact (ih (Nat.lt_of_succ_lt_succ hfuel) false).bind (takes_pure _ _)

theorem document_eq_ok {text : String} (h : ReadsBack reader text.toList a) :
    document reader text = .ok a := by
  have hread := h [] ends_nil
  rw [List.append_nil] at hread
  have hwhole : Takes (document.whole reader) text.toList a [] :=
    hread.bind (takes_peekToken_nil.bind (takes_pure a []))
  obtain ⟨place, hrun⟩ := hwhole ⟨1, 0⟩
  exact congrArg Prod.fst hrun

end Reader

end Annals.Json
