import Annals.Proofs.Codecs
import Annals.Proofs.Fields
import Mathlib.Data.List.Perm.Basic

namespace Annals.Json

theorem insertField_perm {name : String} {fields : List (String × Json)}
    (h : name ∉ fields.map Prod.fst) (json : Json) :
    (insertField name json fields).Perm ((name, json) :: fields) := by
  induction fields with
  | nil => exact .refl _
  | cons field fields ih =>
      obtain ⟨first, value⟩ := field
      have hne : name ≠ first := List.ne_of_not_mem_cons h
      have hrest := ih (List.not_mem_of_not_mem_cons h)
      unfold insertField
      rw [if_neg hne]
      split
      · exact .refl _
      · exact (hrest.cons _).trans (.swap ..)

theorem foldl_insertField_perm {fields acc : List (String × Json)}
    (hdistinct : ((acc ++ fields).map Prod.fst).Nodup) :
    (fields.foldl (fun acc (name, value) => insertField name value acc)
      acc).Perm (acc ++ fields) := by
  induction fields generalizing acc with
  | nil => rw [List.append_nil]; exact .refl _
  | cons field fields ih =>
      have hmove : (acc ++ field :: fields).Perm (field :: acc ++ fields) :=
        List.perm_middle
      have hnodup := (hmove.map Prod.fst).nodup_iff.mp hdistinct
      have hfirst : field.1 ∉ (acc ++ fields).map Prod.fst :=
        (List.nodup_cons.mp hnodup).1
      rw [List.map_append] at hfirst
      have hnew : field.1 ∉ acc.map Prod.fst :=
        fun hmem => hfirst (List.mem_append_left _ hmem)
      have hone := insertField_perm hnew field.2
      rw [List.foldl_cons]
      refine (ih ?_).trans ((hone.append_right fields).trans hmove.symm)
      exact (((hone.append_right fields).map Prod.fst).nodup_iff).mpr hnodup

theorem ofFields_perm {fields : List (String × Json)}
    (hdistinct : (fields.map Prod.fst).Nodup) :
    ∃ fields', ofFields fields = .object fields' ∧ fields'.Perm fields :=
  ⟨_, rfl, foldl_insertField_perm hdistinct⟩

namespace Reader

def fieldsText (first : Bool) : List (String × Json) → List Char
  | [] => []
  | (name, json) :: fields =>
    separator first ++
      ((renderString name).toList ++
        ':' :: (json.render.toList ++ fieldsText false fields))

theorem toList_renderFields (fields : List (String × Json)) :
    (renderFields fields).toList = fieldsText true fields := by
  have htail (name : String) (json : Json) (fields : List (String × Json)) :
      (renderFields ((name, json) :: fields)).toList =
        (renderString name).toList ++
          ':' :: (json.render.toList ++ fieldsText false fields) := by
    have hcolon : ":".toList = [':'] := rfl
    have hcomma : ",".toList = separator false := rfl
    induction fields generalizing name json with
    | nil =>
        change (renderString name ++ ":" ++ json.render).toList = _
        simp only [String.toList_append, hcolon, List.append_assoc,
          List.singleton_append]
        exact congrArg _ (congrArg _ (List.append_nil _).symm)
    | cons next fields ih =>
        change (renderString name ++ ":" ++ json.render ++ "," ++
          renderFields (next :: fields)).toList = _
        simp only [String.toList_append, ih, hcolon, hcomma, List.append_assoc,
          List.singleton_append]
        rfl
  cases fields with
  | nil => rfl
  | cons field fields => exact htail field.1 field.2 fields

theorem length_le_fieldsText (first : Bool) (fields : List (String × Json)) :
    fields.length ≤ (fieldsText first fields).length := by
  induction fields generalizing first with
  | nil => exact Nat.le_refl 0
  | cons field fields ih =>
      have hle := ih false
      unfold fieldsText
      simp only [List.length_append, List.length_cons]
      omega

theorem ends_fieldsText (fields : List (String × Json)) (rest : List Char) :
    Ends (fieldsText false fields ++ '\x7d' :: rest) := by
  cases fields with
  | nil => exact ends_cons (by decide) rest
  | cons field fields => exact ends_cons (by decide) _

end Reader

namespace Codec

open Reader

variable {fs : List Field} {values : Values fs} {f : Field} {value : f.Carrier}
    {names : List String} {json : Json} {fields : List (String × Json)}
    {source rest : List Char}

/-- A record has a value in a field. -/
inductive Holds : (fs : List Field) → Values fs → (f : Field) → f.Carrier → Prop
  | here {f : Field} {fs : List Field} (value : f.Carrier) (rest : Values fs) :
      Holds (f :: fs) (value, rest) f value
  | there {g f : Field} {fs : List Field} (first : g.Carrier) {rest : Values fs}
      {value : f.Carrier} (h : Holds fs rest f value) :
      Holds (g :: fs) (first, rest) f value

theorem Holds.mem (h : Holds fs values f value) : f ∈ fs := by
  induction h with
  | here => exact List.mem_cons_self
  | there _ _ ih => exact List.mem_cons_of_mem _ ih

theorem mem_encodeFields {field : String × Json}
    (h : field ∈ encodeFields fs values) :
    ∃ f value, Holds fs values f value ∧
      field = (f.name, f.codec.encode value) := by
  induction fs with
  | nil => cases h
  | cons f fs ih =>
      obtain ⟨value, rest⟩ := values
      rcases List.mem_cons.mp
        (show field ∈ (f.name, f.codec.encode value) :: encodeFields fs
          rest from h) with rfl | h
      · exact ⟨f, value, .here value rest, rfl⟩
      · obtain ⟨g, other, hholds, hfield⟩ := ih h
        exact ⟨g, other, .there value hholds, hfield⟩

theorem map_fst_encodeFields (values : Values fs) :
    (encodeFields fs values).map Prod.fst = fs.map Field.name := by
  induction fs with
  | nil => rfl
  | cons f fs ih => exact congrArg (f.name :: ·) (ih values.2)

/-- What has been found of a record when some names have been seen. -/
def foundOf : (fs : List Field) → Values fs → List String → Found fs
  | [], _, _ => ()
  | f :: fs, (value, rest), names =>
    (if f.name ∈ names then some value else none, foundOf fs rest names)

theorem foundOf_cons (value : f.Carrier) (rest : Values fs)
    (names : List String) :
    foundOf (f :: fs) (value, rest) names =
      (if f.name ∈ names then some value else none, foundOf fs rest names) :=
    rfl

theorem foundOf_nil (values : Values fs) :
    foundOf fs values [] = nothing fs := by
  induction fs with
  | nil => rfl
  | cons f fs ih => exact congrArg (none, ·) (ih values.2)

theorem foundOf_cons_names {name : String} (h : name ∉ fs.map Field.name)
    (values : Values fs) (names : List String) :
    foundOf fs values (name :: names) = foundOf fs values names := by
  induction fs with
  | nil => rfl
  | cons f fs ih =>
      obtain ⟨value, rest⟩ := values
      have hne : f.name ≠ name := (List.ne_of_not_mem_cons h).symm
      rw [foundOf_cons, foundOf_cons, ih (List.not_mem_of_not_mem_cons h)]
      simp only [List.mem_cons, hne, false_or]
      rfl

theorem complete_foundOf (h : ∀ f ∈ fs, f.name ∈ names) :
    complete fs (foundOf fs values names) = .ok values := by
  induction fs with
  | nil => rfl
  | cons f fs ih =>
      obtain ⟨value, rest⟩ := values
      rw [foundOf_cons, if_pos (h f List.mem_cons_self), complete_some,
        ih fun f' hf' => h f' (List.mem_cons_of_mem f hf')]
      rfl

theorem takeField_foundOf (h : Holds fs values f value)
    (hdistinct : (fs.map Field.name).Nodup)
    (hdecode : f.codec.decode json = .ok value) (names : List String) :
    takeField fs f.name json (foundOf fs values names) =
      .ok (foundOf fs values (f.name :: names)) := by
  induction h with
  | here value rest =>
      obtain ⟨hnew, -⟩ := List.nodup_cons.mp hdistinct
      rw [foundOf_cons, foundOf_cons, takeField_cons, if_pos rfl, hdecode,
        if_pos List.mem_cons_self, foundOf_cons_names hnew]
      rfl
  | @there g f fs first rest value hholds ih =>
      obtain ⟨hnew, hdistinct⟩ := List.nodup_cons.mp hdistinct
      have hne : g.name ≠ f.name :=
        fun heq => hnew (heq ▸ List.mem_map_of_mem hholds.mem)
      rw [foundOf_cons, foundOf_cons, takeField_cons, if_neg hne,
        ih hdistinct hdecode]
      simp only [List.mem_cons, hne, false_or]
      rfl

/-- Each field is read as the value that the record has in it. -/
def ReadsEach (fs : List Field) (values : Values fs)
    (fields : List (String × Json)) : Prop :=
  ∀ field ∈ fields, ∃ f value, Holds fs values f value ∧ field.1 = f.name ∧
    f.codec.Reads field.2 value

theorem takeFields_foundOf (hdistinct : (fs.map Field.name).Nodup)
    (h : ReadsEach fs values fields) (names : List String) :
    takeFields fs (foundOf fs values names) fields =
      .ok (foundOf fs values ((fields.map Prod.fst).reverse ++ names)) := by
  induction fields generalizing names with
  | nil => rfl
  | cons field fields ih =>
      obtain ⟨name, json⟩ := field
      obtain ⟨f, value, hholds, rfl, hreads⟩ := h _ List.mem_cons_self
      rw [takeFields_cons, takeField_foundOf hholds hdistinct hreads.decode]
      change takeFields fs (foundOf fs values (f.name :: names)) fields = _
      rw [ih (fun field hfield => h field (List.mem_cons_of_mem _ hfield)),
        List.map_cons, List.reverse_cons, List.append_assoc]
      rfl

theorem readField_first (others : Found fs) :
    readField (f :: fs) f.name (none, others) =
      (do Reader.colon; return (some (← f.codec.read), others) : Reader (Found
        (f :: fs))) :=
  if_pos rfl

theorem readField_later {name : String} (h : f.name ≠ name)
    (value? : Option f.Carrier) (others : Found fs) :
    readField (f :: fs) name (value?, others) =
      (do return (value?, ← readField fs name others) : Reader (Found
        (f :: fs))) :=
  if_neg h

theorem takes_readField (h : Holds fs values f value)
    (hdistinct : (fs.map Field.name).Nodup)
    (hread : Takes f.codec.read source value rest) (hfresh : f.name ∉ names) :
    Takes (readField fs f.name (foundOf fs values names)) (':' :: source)
      (foundOf fs values (f.name :: names)) rest := by
  induction h with
  | here value others =>
      obtain ⟨hnew, -⟩ := List.nodup_cons.mp hdistinct
      rw [foundOf_cons, foundOf_cons, if_neg hfresh, if_pos List.mem_cons_self,
        foundOf_cons_names hnew, readField_first]
      exact (takes_colon source).bind (hread.bind (takes_pure _ rest))
  | @there g f fs first others value hholds ih =>
      obtain ⟨hnew, hdistinct⟩ := List.nodup_cons.mp hdistinct
      have hne : g.name ≠ f.name :=
        fun heq => hnew (heq ▸ List.mem_map_of_mem hholds.mem)
      rw [foundOf_cons, foundOf_cons, readField_later hne]
      simp only [List.mem_cons, hne, false_or]
      exact (ih hdistinct hread hfresh).bind (takes_pure _ rest)

theorem takes_readFields (hdistinct : (fs.map Field.name).Nodup)
    (h : ReadsEach fs values fields)
    (hfresh : ((fields.map Prod.fst).reverse ++ names).Nodup) {fuel : Nat}
    (hfuel : fields.length < fuel) (first : Bool) (rest : List Char) :
    Takes (readFields fs (foundOf fs values names) first fuel)
      (fieldsText first fields ++ '\x7d' :: rest)
      (foundOf fs values ((fields.map Prod.fst).reverse ++ names))
      ('\x7d' :: rest) := by
  induction fields generalizing names first fuel with
  | nil =>
      obtain ⟨fuel, rfl⟩ := Nat.exists_eq_add_one.mpr hfuel
      exact (takes_nextKey_end first rest).bind (takes_pure _ _)
  | cons field fields ih =>
      obtain ⟨fuel, rfl⟩ := Nat.exists_eq_add_one.mpr (Nat.zero_lt_of_lt hfuel)
      obtain ⟨name, json⟩ := field
      obtain ⟨f, value, hholds, rfl, hreads⟩ := h _ List.mem_cons_self
      rw [List.map_cons, List.reverse_cons, List.append_assoc] at hfresh ⊢
      have hname : f.name ∉ names :=
        (List.nodup_cons.mp (List.nodup_append.mp hfresh).2.1).1
      have hread := hreads.read _ (ends_fieldsText fields rest)
      have hothers :=
        ih (fun field hfield => h field (List.mem_cons_of_mem _ hfield)) hfresh
          (Nat.lt_of_succ_lt_succ hfuel) false
      unfold fieldsText readFields
      simp only [List.append_assoc, List.cons_append]
      refine (takes_nextKey first f.name _).bind ?_
      exact (takes_readField hholds hdistinct hread hname).bind hothers

theorem toList_render_object (fields : List (String × Json)) :
    (Json.object fields).render.toList =
      '\x7b' :: (fieldsText true fields ++ ['\x7d']) := by
  rw [← toList_renderFields]
  change ("\x7b" ++ renderFields fields ++ "\x7d").toList = _
  rw [String.toList_append, String.toList_append]
  rfl

/-- An object with the fields of a record, in any order, is read as that
record. -/
theorem reads_object (name : String) (hdistinct : (fs.map Field.name).Nodup)
    (h : ReadsEach fs values fields)
    (hnames : (fields.map Prod.fst).Perm (fs.map Field.name)) :
    (record name fs).Reads (.object fields) values := by
  have hcomplete : complete fs
      (foundOf fs values ((fields.map Prod.fst).reverse ++ [])) =
      .ok values := by
    apply complete_foundOf
    intro f hf
    rw [List.append_nil, List.mem_reverse]
    exact hnames.mem_iff.mpr (List.mem_map_of_mem hf)
  have hdecode : (record name fs).decode (.object fields) = .ok values := by
    change (takeFields fs (nothing fs) fields).bind (complete fs) = _
    rw [← foundOf_nil values, takeFields_foundOf hdistinct h]
    exact hcomplete
  have hfresh : ((fields.map Prod.fst).reverse ++ []).Nodup := by
    rw [List.append_nil, List.nodup_reverse]
    exact hnames.nodup_iff.mpr hdistinct
  refine Reads.of_text (toList_render_object fields) (by decide) (by decide)
    (by decide) hdecode
    fun rest _ => ?_
  have hroom : fields.length <
      (fieldsText true fields ++ '\x7d' :: rest).length + 1 := by
    have hle := length_le_fieldsText true fields
    rw [List.length_append]
    omega
  rw [List.append_assoc, List.singleton_append]
  refine takes_readIf (by decide) (by decide) ((takes_advance '\x7b' _).bind ?_)
  rw [if_neg (by decide)]
  refine Takes.enclosed ?_ (takes_endObject rest)
  refine (takes_room _).bind (takes_ofMessage ?_ hcomplete)
  rw [← foundOf_nil values]
  exact takes_readFields hdistinct h hfresh hroom true rest

theorem record_restores (name : String) (hdistinct : (fs.map Field.name).Nodup)
    (h : ∀ f ∈ fs, f.codec.Restores) : (record name fs).Restores := by
  intro values json hjson
  have hencoded : ((encodeFields fs values).map Prod.fst).Nodup := by
    rwa [map_fst_encodeFields]
  obtain ⟨sorted, hsorted, hperm⟩ := ofFields_perm hencoded
  have hobject : Reordered (.object sorted) json := by
    rw [← hsorted]
    exact hjson
  obtain ⟨fields, rfl, hnames, hfields⟩ := hobject.object_left
  apply reads_object name hdistinct
  · intro field hfield
    obtain ⟨field', hfield', hname, hvalue⟩ := hfields field hfield
    obtain ⟨f, value, hholds, rfl⟩ :=
      mem_encodeFields (hperm.mem_iff.mp hfield')
    exact ⟨f, value, hholds, hname.symm, h f hholds.mem _ _ hvalue⟩
  · rw [← map_fst_encodeFields values]
    exact hnames.trans (hperm.map Prod.fst)

end Codec

end Annals.Json
