import Annals.Json.Codec
import Annals.Proofs.Documents
import Annals.Proofs.Outcomes

namespace Annals.Json

open Annals.Number Annals.Text

/-- A value in which the fields of objects have another order. -/
inductive Reordered : Json → Json → Prop
  | same (json : Json) : Reordered json json
  | array {items items' : List Json} (h : List.Forall₂ Reordered items items') :
      Reordered (.array items) (.array items')
  | object {fields middle fields' : List (String × Json)}
      (horder : fields.Perm middle)
      (hnames : middle.map Prod.fst = fields'.map Prod.fst)
      (h : List.Forall₂ Reordered (middle.map Prod.snd)
        (fields'.map Prod.snd)) :
      Reordered (.object fields) (.object fields')

namespace Reordered

variable {json : Json} {fields : List (String × Json)} {items : List Json}

theorem null_right (h : Reordered json .null) : json = .null := by
  cases h with
  | same => rfl

theorem array_left (h : Reordered (.array items) json) :
    ∃ items', json = .array items' ∧ List.Forall₂ Reordered items items' := by
  cases h with
  | same => exact ⟨items, rfl, List.forall₂_same.mpr fun json _ => same json⟩
  | @array _ items' h => exact ⟨items', rfl, h⟩

theorem object_left (h : Reordered (.object fields) json) :
    ∃ fields', json = .object fields' ∧
      (fields'.map Prod.fst).Perm (fields.map Prod.fst) ∧
      ∀ field' ∈ fields', ∃ field ∈ fields, field.1 = field'.1 ∧
        Reordered field.2 field'.2 := by
  cases h with
  | same =>
      exact ⟨fields, rfl, .refl _, fun field hfield =>
        ⟨field, hfield, rfl, same _⟩⟩
  | @object _ middle fields' horder hnames h =>
      refine ⟨fields', rfl, hnames ▸ (horder.map Prod.fst).symm,
        fun field' hfield' => ?_⟩
      rw [← List.forall₂_eq_eq_eq, List.forall₂_map_left_iff,
        List.forall₂_map_right_iff] at hnames
      rw [List.forall₂_map_left_iff, List.forall₂_map_right_iff] at h
      have hboth := hnames.mp (fun _ _ hname hvalue => And.intro hname hvalue) h
      obtain ⟨field, hfield, hsame⟩ := exists_of_forall₂ hboth hfield'
      exact ⟨field, horder.mem_iff.mpr hfield, hsame⟩

end Reordered

namespace Codec

open Reader

variable {α β : Type} {codec : Codec α} {json : Json} {a : α}
    {source rest : List Char}

/-- A codec reads a value, from JSON and from its text, and can tell it from
nothing. -/
structure Reads (codec : Codec α) (json : Json) (a : α) : Prop where
  decode : codec.decode json = .ok a
  read : ReadsBack codec.read json.render.toList a
  begins : Begins json.render.toList
  null : json.render.toList.head? = some 'n' → json = .null

theorem Reads.of_text {c : Char} {tail : List Char}
    (htext : json.render.toList = c :: tail)
    (hspace : isSpace c = false) (hend : c ≠ ']') (hnull : c ≠ 'n')
    (hdecode : codec.decode json = .ok a)
    (hread : ∀ rest, Ends rest →
      Takes codec.read (c :: (tail ++ rest)) a rest) :
    codec.Reads json a := by
  have hhead : json.render.toList.head? = some c := by
    rw [htext]
    rfl
  constructor
  · exact hdecode
  · intro rest hrest
    rw [htext]
    exact hread rest hrest
  · exact ⟨c, hhead, hspace, hend⟩
  · intro heq
    exact absurd (Option.some.inj (hhead.symm.trans heq)) hnull

/-- A codec reads what it writes, in any order of the fields. -/
def Restores (codec : Codec α) : Prop :=
  ∀ a json, Reordered (codec.encode a) json → codec.Reads json a

theorem takes_readIf {starts : Char → Bool} {expected : String}
    {reader : Char → Reader α} {c : Char} (hspace : isSpace c = false)
    (hstarts : starts c = true) (h : Takes (reader c) (c :: source) a rest) :
    Takes (readIf starts expected reader) (c :: source) a rest := by
  refine (takes_peekToken hspace source).bind (Takes.placed ?_)
  rw [if_pos hstarts]
  exact h

theorem takes_ofMessage {reader : Reader α}
    {parse : α → Except String β} {b : β} (h : Takes reader source a rest)
    (hparse : parse a = .ok b) :
    Takes (do Codec.ofMessage (parse (← reader))) source b rest := by
  refine h.bind ?_
  rw [hparse]
  exact takes_pure b rest

theorem Restores.iso (h : codec.Restores) {parse : α → β} {write : β → α}
    (hparse : ∀ b, parse (write b) = b) : (codec.iso parse write).Restores := by
  intro b json hjson
  have hreads : codec.Reads json (write b) := h _ json hjson
  refine ⟨?_, fun rest hrest => ?_, hreads.begins, hreads.null⟩
  · change (codec.decode json).map parse = _
    rw [hreads.decode]
    exact congrArg Except.ok (hparse b)
  · have hread := (hreads.read rest hrest).map parse
    rwa [hparse] at hread

theorem Restores.refine (h : codec.Restores) {parse : α → Except String β}
    {write : β → α} (hparse : ∀ b, parse (write b) = .ok b) :
    (codec.refine parse write).Restores := by
  intro b json hjson
  have hreads : codec.Reads json (write b) := h _ json hjson
  refine ⟨?_, fun rest hrest => ?_, hreads.begins, hreads.null⟩
  · change codec.decode json >>= parse = _
    rw [hreads.decode]
    exact hparse b
  · exact takes_ofMessage (hreads.read rest hrest) (hparse b)

theorem isSpace_of_isDigit {c : Char} (h : c.isDigit = true) :
    isSpace c = false := by
  by_contra hspace
  have hc : c = ' ' ∨ c = '\n' ∨ c = '\t' ∨ c = '\r' := by
    simpa only [isSpace, Bool.not_eq_false, Bool.or_eq_true,
      beq_iff_eq, or_assoc] using hspace
  rcases hc with rfl | rfl | rfl | rfl <;> cases h

theorem text_restores (expected : String) {write : α → String}
    {parse : String → Except String α} (hparse : ∀ a, parse (write a) = .ok a) :
    (text expected write parse).Restores := by
  intro a json hjson
  have htext : (Json.string (write a)).render.toList =
      '"' :: ((write a).toList.flatMap (fun c => (escapeChar c).toList) ++
        ['"']) :=
    toList_renderString (write a)
  cases hjson with
  | same =>
      refine Reads.of_text htext (by decide) (by decide) (by decide) (hparse a)
        fun rest _ => ?_
      rw [List.append_assoc]
      refine takes_readIf (by decide) (by decide)
        ((takes_advance '"' _).bind ?_)
      exact takes_ofMessage (takes_stringBody (write a) rest) (hparse a)

theorem text_encode_ne_null (expected : String) (write : α → String)
    (parse : String → Except String α)
    (a : α) : (text expected write parse).encode a ≠ .null := nofun

theorem string_restores : string.Restores :=
  text_restores _ fun _ => rfl

theorem toList_render_integer (n : Int) :
    (Json.integer n).render.toList =
      if n < 0 then '-' :: Nat.toDigits 10 n.natAbs
      else Nat.toDigits 10 n.natAbs := by
  have hnat (n : Nat) : (toString n).toList = Nat.toDigits 10 n := by
    rw [Nat.toString_eq_ofList_toDigits, String.toList_ofList]
  cases n with
  | ofNat n =>
      have hn : ¬Int.ofNat n < 0 := Int.not_lt.mpr (Int.natCast_nonneg n)
      rw [if_neg hn]
      exact hnat n
  | negSucc n =>
      rw [if_pos (Int.negSucc_lt_zero n)]
      change ("-" ++ toString (n + 1)).toList = _
      rw [String.toList_append, hnat]
      rfl

theorem toInt64_toInt (n : Int64) : toInt64 (.integer n.toInt) = .ok n := by
  have hfits : int64? n.toInt = some n := int64?_eq_some.mpr rfl
  unfold toInt64
  dsimp only
  rw [hfits]

theorem natAbs_le_maxSignificand (n : Int64) :
    n.toInt.natAbs ≤ maxSignificand := by
  have hlow := n.le_toInt
  have hhigh := n.toInt_lt
  have hmax : maxSignificand = 2 ^ 64 - 1 := rfl
  omega

theorem reads_digits {n : Int64} (hn : 0 ≤ n.toInt) :
    int64.Reads (.integer n.toInt) n := by
  have habs : (n.toInt.natAbs : Int) = n.toInt := Int.natAbs_of_nonneg hn
  obtain ⟨c, digits, hdigits, hc, -⟩ := exists_firstDigit n.toInt.natAbs
  have htext := toList_render_integer n.toInt
  rw [if_neg (Int.not_lt.mpr hn), hdigits] at htext
  refine Reads.of_text htext (isSpace_of_isDigit hc) ?_ ?_ (toInt64_toInt n)
    fun rest hrest => ?_
  · rintro rfl
    cases hc
  · rintro rfl
    cases hc
  · have hnumber := takes_number true (natAbs_le_maxSignificand n) hrest nofun
    rw [if_pos rfl, habs, hdigits] at hnumber
    refine takes_readIf (isSpace_of_isDigit hc) (by simp [hc]) ?_
    rw [if_neg (by rintro rfl; cases hc)]
    exact takes_ofMessage hnumber (toInt64_toInt n)

theorem reads_negative {n : Int64} (hn : n.toInt < 0) :
    int64.Reads (.integer n.toInt) n := by
  have habs : -(n.toInt.natAbs : Int) = n.toInt := by omega
  have hfits : n.toInt.natAbs ≠ 0 ∧
      (int64? (-(n.toInt.natAbs : Int))).isSome := by
    rw [habs, int64?_eq_some.mpr rfl]
    exact ⟨by omega, rfl⟩
  have htext := toList_render_integer n.toInt
  rw [if_pos hn] at htext
  refine Reads.of_text htext (by decide) (by decide) (by decide)
    (toInt64_toInt n)
    fun rest hrest => ?_
  have hnumber :=
    takes_number false (natAbs_le_maxSignificand n) hrest fun _ => hfits
  rw [if_neg Bool.false_ne_true, habs] at hnumber
  refine takes_readIf (by decide) (by decide) ?_
  rw [if_pos rfl]
  exact (takes_advance '-' _).bind (takes_ofMessage hnumber (toInt64_toInt n))

theorem int64_restores : int64.Restores := by
  intro n json hjson
  cases hjson with
  | same =>
      rcases Int.lt_or_le n.toInt 0 with hn | hn
      · exact reads_negative hn
      · exact reads_digits hn

theorem option_restores (h : codec.Restores)
    (hnull : ∀ a, codec.encode a ≠ .null) :
    codec.option.Restores := by
  intro a? json hjson
  cases a? with
  | none =>
      cases hjson with
      | same =>
          have htext : Json.null.render.toList = ['n', 'u', 'l', 'l'] := rfl
          have hhead : Json.null.render.toList.head? = some 'n' := rfl
          refine ⟨rfl, fun rest _ => ?_, ⟨'n', hhead, by decide⟩, fun _ => rfl⟩
          change Takes codec.option.read (Json.null.render.toList ++ rest)
            none rest
          rw [htext]
          refine (takes_peekToken (by decide) _).bind
            ((takes_advance 'n' _).bind ?_)
          exact (takes_word ['u', 'l', 'l'] rest).bind (takes_pure none rest)
  | some a =>
      have hreads : codec.Reads json a := h a json hjson
      have hpresent : json ≠ .null := by
        rintro rfl
        exact hnull a hjson.null_right
      refine ⟨?_, fun rest hrest => ?_, hreads.begins, hreads.null⟩
      · have hdecode : codec.option.decode json =
            some <$> codec.decode json := by
          cases json with
          | null => exact absurd rfl hpresent
          | _ => rfl
        rw [hdecode, hreads.decode]
        rfl
      · obtain ⟨c, hc, hspace, -⟩ := hreads.begins
        obtain ⟨text, htext⟩ := List.head?_eq_some_iff.mp hc
        have hread := hreads.read rest hrest
        rw [htext, List.cons_append] at hread ⊢
        refine (takes_peekToken hspace _).bind ?_
        split
        case h_1 heq => exact absurd (hreads.null (hc.trans heq)) hpresent
        case h_2 => exact hread.map some

theorem list_restores (h : codec.Restores) : codec.list.Restores := by
  intro as json hjson
  obtain ⟨items, rfl, hitems⟩ := hjson.array_left
  have hreads : List.Forall₂ codec.Reads items as :=
    ((List.forall₂_map_left_iff.mp hitems).imp h).flip
  have htext : (Json.array items).render.toList =
      '[' :: (itemsText true items ++ [']']) := by
    rw [← toList_renderItems]
    change ("[" ++ renderItems items ++ "]").toList = _
    rw [String.toList_append, String.toList_append]
    rfl
  have hdecode : codec.list.decode (.array items) = .ok as :=
    mapM_eq_ok.mpr (hreads.imp fun _ _ hread => hread.decode)
  have hitems : List.Forall₂ (fun json a => Begins json.render.toList ∧
      ReadsBack codec.read json.render.toList a) items as :=
    hreads.imp fun _ _ hread => ⟨hread.begins, hread.read⟩
  have hlength :=
    length_le_itemsText true items ((List.forall₂_and_left _ _).mp hitems).1
  refine Reads.of_text htext (by decide) (by decide) (by decide) hdecode
    fun rest _ => ?_
  rw [List.append_assoc, List.singleton_append]
  refine takes_readIf (by decide) (by decide) ((takes_advance '[' _).bind ?_)
  refine (takes_room _).bind (Takes.enclosed ?_ (takes_endList rest))
  apply takes_items hitems
  rw [List.length_append]
  omega

end Codec

end Annals.Json
