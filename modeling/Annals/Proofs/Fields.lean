import Annals.Json.Codec
import Annals.Proofs.Outcomes
import Mathlib.Data.List.Nodup
import Mathlib.Logic.Function.Basic

namespace Annals.Json

namespace Codec

/-- The entries of a value that stand for fields, those that count first. -/
def entries (fs : List Field) : Json → List (String × Json)
  | .object fields => fields.reverse
  | .array items => (fs.map Field.name).zip items
  | _ => []

def otherwise : Json → (f : Field) → Option f.Carrier
  | .array _ => Field.cutOff?
  | _ => Field.absent?

/-- What has been found of each field is what its entry gives. -/
def Finds (entry : String → Option Json) : (fs : List Field) → Found fs → Prop
  | [], _ => True
  | f :: fs, (value?, rest) =>
    (entry f.name).mapM f.codec.decode = .ok value? ∧ Finds entry fs rest

/-- The value of each field is what its entry gives, or stands in for it. -/
def Gives (entry : String → Option Json)
    (standIn : (f : Field) → Option f.Carrier) :
    (fs : List Field) → Values fs → Prop
  | [], _ => True
  | f :: fs, (value, rest) =>
    (match entry f.name with
      | some json => f.codec.decode json = .ok value
      | none => standIn f = some value) ∧ Gives entry standIn fs rest

variable {fs : List Field} {entry entry' : String → Option Json}

theorem Finds.congr {found : Found fs} (h : Finds entry fs found)
    (hsame : ∀ f ∈ fs, entry' f.name = entry f.name) :
    Finds entry' fs found := by
  induction fs with
  | nil => trivial
  | cons f fs ih =>
      obtain ⟨value?, rest⟩ := found
      refine ⟨?_, ih h.2 fun f' hf' => hsame f' (List.mem_cons_of_mem f hf')⟩
      rw [hsame f List.mem_cons_self]
      exact h.1

section First

variable {standIn : (f : Field) → Option f.Carrier} {f : Field}
    {value : f.Carrier} {rest : Values fs}

theorem Gives.decode (h : Gives entry standIn (f :: fs) (value, rest))
    {json : Json} (hentry : entry f.name = some json) : f.codec.decode json =
      .ok value := by
  have hfirst := h.1
  rwa [hentry] at hfirst

theorem Gives.stands_in (h : Gives entry standIn (f :: fs) (value, rest))
    (hentry : entry f.name = none) : standIn f = some value := by
  have hfirst := h.1
  rwa [hentry] at hfirst

end First

theorem Gives.congr {standIn : (f : Field) → Option f.Carrier}
    {values : Values fs} (h : Gives entry standIn fs values)
    (hsame : ∀ f ∈ fs, entry' f.name = entry f.name) :
    Gives entry' standIn fs values := by
  induction fs with
  | nil => trivial
  | cons f fs ih =>
      obtain ⟨value, rest⟩ := values
      refine ⟨?_, ih h.2 fun f' hf' => hsame f' (List.mem_cons_of_mem f hf')⟩
      rw [hsame f List.mem_cons_self]
      exact h.1

theorem finds_nothing (fs : List Field) :
    Finds (fun _ => none) fs (nothing fs) := by
  induction fs with
  | nil => trivial
  | cons f fs ih => exact ⟨rfl, ih⟩

section Equations

variable (f : Field) (fs : List Field) (name expected : String) (json : Json)
    (index : Nat) (items : List Json)

theorem takeField_cons (value? : Option f.Carrier) (rest : Found fs) :
    takeField (f :: fs) name json (value?, rest) =
      if f.name = name then (f.codec.decode json).map fun value => (some
        value, rest)
      else (takeField fs name json rest).map (value?, ·) := rfl

theorem takeFields_cons (found : Found fs) (fields : List (String × Json)) :
    takeFields fs found ((name, json) :: fields) =
      (takeField fs name json found).bind fun found =>
        takeFields fs found fields := rfl

theorem complete_some (value : f.Carrier) (rest : Found fs) :
    complete (f :: fs) (some value, rest) = (complete fs rest).map (value, ·) :=
  rfl

theorem complete_none (rest : Found fs) :
    complete (f :: fs) (none, rest) =
      match f.absent? with
      | some value => (complete fs rest).map (value, ·)
      | none => .error (missing f.name) := by
  obtain ⟨name, Carrier, codec, absent?, cutOff?⟩ := f
  cases absent? <;> rfl

theorem takeItems_cons :
    takeItems expected (f :: fs) index (json :: items) =
      (f.codec.decode json).bind fun value =>
        (takeItems expected fs (index + 1) items).map (value, ·) := rfl

theorem takeItems_cut :
    takeItems expected (f :: fs) index [] =
      match f.cutOff? with
      | some value => (takeItems expected fs (index + 1) []).map (value, ·)
      | none => .error (invalidLength index expected) := rfl

end Equations

theorem takeField_unknown {name : String} (h : name ∉ fs.map Field.name)
    (json : Json) (found : Found fs) : takeField fs name json found =
      .ok found := by
  induction fs with
  | nil => rfl
  | cons f fs ih =>
      obtain ⟨value?, rest⟩ := found
      have hne : f.name ≠ name := (List.ne_of_not_mem_cons h).symm
      rw [takeField_cons, if_neg hne, ih (List.not_mem_of_not_mem_cons h)]
      rfl

theorem takeFields_known (found : Found fs) (fields : List (String × Json)) :
    takeFields fs found (fields.filter fun field =>
      field.1 ∈ fs.map Field.name) = takeFields fs found fields := by
  induction fields generalizing found with
  | nil => rfl
  | cons field fields ih =>
      obtain ⟨name, json⟩ := field
      rw [takeFields_cons]
      by_cases hknown : name ∈ fs.map Field.name
      · rw [List.filter_cons_of_pos (by simpa using hknown), takeFields_cons]
        simp only [ih]
      · rw [List.filter_cons_of_neg (by simpa using hknown),
          takeField_unknown hknown]
        exact ih found

theorem finds_of_takeField (hdistinct : (fs.map Field.name).Nodup)
    {found found' : Found fs} (h : Finds entry fs found) {name : String}
    {json : Json} (htake : takeField fs name json found = .ok found') :
    Finds (Function.update entry name (some json)) fs found' := by
  induction fs with
  | nil => trivial
  | cons f fs ih =>
      obtain ⟨value?, rest⟩ := found
      obtain ⟨hnew, hdistinct⟩ := List.nodup_cons.mp hdistinct
      rw [takeField_cons] at htake
      by_cases hname : f.name = name
      · rw [if_pos hname] at htake
        obtain ⟨value, hdecode, rfl⟩ := map_eq_ok.mp htake
        subst hname
        refine ⟨?_, h.2.congr fun f' hf' => ?_⟩
        · rw [Function.update_self]
          change some <$> f.codec.decode json = _
          rw [hdecode]
          rfl
        · refine Function.update_of_ne (fun heq => hnew ?_) _ _
          exact heq ▸ List.mem_map_of_mem hf'
      · rw [if_neg hname] at htake
        obtain ⟨rest', hrest, rfl⟩ := map_eq_ok.mp htake
        refine ⟨?_, ih hdistinct h.2 hrest⟩
        rw [Function.update_of_ne hname]
        exact h.1

theorem finds_of_takeFields (hdistinct : (fs.map Field.name).Nodup)
    {found found' : Found fs} (h : Finds entry fs found)
    {fields : List (String × Json)}
    (htake : takeFields fs found fields = .ok found') :
    Finds (fun name => (fields.reverse.lookup name).or (entry name)) fs
      found' := by
  induction fields generalizing entry found with
  | nil =>
      cases htake
      exact h
  | cons field fields ih =>
      obtain ⟨name, json⟩ := field
      rw [takeFields_cons] at htake
      obtain ⟨found₁, hone, hrest⟩ := bind_eq_ok.mp htake
      refine (ih (finds_of_takeField hdistinct h hone) hrest).congr
        fun f _ => ?_
      rw [List.reverse_cons, List.lookup_append, Option.or_assoc]
      congr 1
      by_cases hname : f.name = name
      · rw [hname, Function.update_self, List.lookup_cons_self]
        rfl
      · have hother : (f.name == name) = false := beq_false_of_ne hname
        rw [Function.update_of_ne hname, List.lookup_cons, hother]
        rfl

theorem gives_of_complete {found : Found fs} (h : Finds entry fs found)
    {values : Values fs} (hcomplete : complete fs found = .ok values) :
    Gives entry Field.absent? fs values := by
  induction fs with
  | nil => trivial
  | cons f fs ih =>
      obtain ⟨value?, rest⟩ := found
      obtain ⟨hfound, hrest⟩ := h
      cases hentry : entry f.name with
      | none =>
          rw [hentry] at hfound
          cases hfound
          rw [complete_none] at hcomplete
          cases habsent : f.absent? with
          | none =>
              rw [habsent] at hcomplete
              cases hcomplete
          | some value =>
              rw [habsent] at hcomplete
              obtain ⟨values, hvalues, rfl⟩ := map_eq_ok.mp hcomplete
              refine ⟨?_, ih hrest hvalues⟩
              rw [hentry]
              exact habsent
      | some json =>
          rw [hentry] at hfound
          obtain ⟨value, hdecode, rfl⟩ := map_eq_ok.mp
            (show (f.codec.decode json).map some = .ok value? from hfound)
          rw [complete_some] at hcomplete
          obtain ⟨values, hvalues, rfl⟩ := map_eq_ok.mp hcomplete
          refine ⟨?_, ih hrest hvalues⟩
          rw [hentry]
          exact hdecode

theorem gives_of_takeItems (hdistinct : (fs.map Field.name).Nodup)
    {expected : String} {index : Nat} {items : List Json} {values : Values fs}
    (htake : takeItems expected fs index items = .ok values) :
    Gives (((fs.map Field.name).zip items).lookup ·) Field.cutOff? fs
      values := by
  induction fs generalizing index items with
  | nil => trivial
  | cons f fs ih =>
      obtain ⟨hnew, hdistinct⟩ := List.nodup_cons.mp hdistinct
      cases items with
      | nil =>
          rw [takeItems_cut] at htake
          cases hcut : f.cutOff? with
          | none =>
              rw [hcut] at htake
              cases htake
          | some value =>
              rw [hcut] at htake
              obtain ⟨values, hvalues, rfl⟩ := map_eq_ok.mp htake
              refine ⟨hcut, (ih hdistinct hvalues).congr fun f' _ => ?_⟩
              rw [List.zip_nil_right, List.zip_nil_right]
      | cons item items =>
          rw [takeItems_cons] at htake
          obtain ⟨value, hdecode, htake⟩ := bind_eq_ok.mp htake
          obtain ⟨values, hvalues, rfl⟩ := map_eq_ok.mp htake
          refine ⟨?_, (ih hdistinct hvalues).congr fun f' hf' => ?_⟩
          · dsimp only
            rw [List.map_cons, List.zip_cons_cons, List.lookup_cons_self]
            exact hdecode
          · have hother : (f'.name == f.name) = false :=
              beq_false_of_ne fun heq => hnew (heq ▸ List.mem_map_of_mem hf')
            rw [List.map_cons, List.zip_cons_cons, List.lookup_cons, hother]

theorem gives_of_record {name : String} (hdistinct : (fs.map Field.name).Nodup)
    {json : Json} {values : Values fs}
    (h : (record name fs).decode json = .ok values) :
    Gives ((entries fs json).lookup ·) (otherwise json) fs values := by
  cases json with
  | object fields =>
      obtain ⟨found, htake, hcomplete⟩ := bind_eq_ok.mp
        (show (takeFields fs (nothing fs) fields).bind (complete fs) =
          .ok values from h)
      have hfinds := finds_of_takeFields hdistinct (finds_nothing fs) htake
      exact (gives_of_complete hfinds hcomplete).congr fun f _ =>
        Option.or_none.symm
  | array items =>
      obtain ⟨values', htake, hlength⟩ := bind_eq_ok.mp
        (show (takeItems (record.whole name fs) fs 0 items).bind (fun values =>
          if items.length ≤ fs.length then pure values
          else throw (invalidLength items.length "fewer elements in array")) =
            .ok values from h)
      have hvalues : values' = values := by
        split at hlength
        · exact Except.ok.inj hlength
        · cases hlength
      exact hvalues ▸ gives_of_takeItems hdistinct htake
  | _ => cases h

theorem list_decode_eq_ok {α : Type} {codec : Codec α} {json : Json}
    {as : List α} (h : codec.list.decode json = .ok as) :
    ∃ items, json = .array items ∧ items.mapM codec.decode = .ok as := by
  cases json with
  | array items => exact ⟨items, rfl, h⟩
  | _ => cases h

end Codec

end Annals.Json
