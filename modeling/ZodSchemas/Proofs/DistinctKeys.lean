import Mathlib.Data.List.Induction
import ZodSchemas.Proofs.JsonValues
import ZodSchemas.Source.Load

namespace ZodSchemas

/-!
# Distinct keys of loaded documents

Setting a key replaces the value of one that is the same, so no mapping that is
made by setting keys has a key twice.  JSON objects and YAML mappings are made in
this way on every level, also where a YAML mapping contains itself, so this holds
of whatever is loaded from a file.
-/

namespace Data

/-- No key of entries is the same as an earlier one. -/
def KeysApart (entries : List (Scalar × α)) : Prop :=
  (entries.map (·.1)).Pairwise fun earlier later => earlier.same later = false

theorem insertEntry_of_new
    {entries : List (Scalar × α)}
    {key : Scalar}
    (new : ∀ other ∈ entries.map (·.1), other.same key = false)
    (value : α) :
    insertEntry key value entries = entries ++ [(key, value)] := by
  induction entries with
  | nil =>
      rfl
  | cons entry rest inductionHypothesis =>
      rw [List.map_cons, List.forall_mem_cons] at new
      rw [insertEntry, if_neg (Bool.eq_false_iff.mp new.1), inductionHypothesis new.2,
        List.cons_append]

theorem keys_insertEntry_of_known
    {entries : List (Scalar × α)}
    {key other : Scalar}
    (member : other ∈ entries.map (·.1))
    (known : other.same key = true)
    (value : α) :
    (insertEntry key value entries).map (·.1) = entries.map (·.1) := by
  induction entries with
  | nil =>
      contradiction
  | cons entry rest inductionHypothesis =>
      rw [insertEntry]
      split
      · rfl
      · rename_i different
        rcases List.mem_cons.mp member with rfl | member
        · contradiction
        · rw [List.map_cons, List.map_cons, inductionHypothesis member]

/-- Setting a key makes no key occur twice. -/
theorem keysApart_insertEntry
    {entries : List (Scalar × α)}
    (apart : KeysApart entries)
    (key : Scalar)
    (value : α) :
    KeysApart (insertEntry key value entries) := by
  unfold KeysApart at apart ⊢
  by_cases known : ∃ other ∈ entries.map (·.1), other.same key = true
  · obtain ⟨other, member, isSame⟩ := known
    rwa [keys_insertEntry_of_known member isSame]
  · have new : ∀ other ∈ entries.map (·.1), other.same key = false := by
      simpa using known
    rw [insertEntry_of_new new, List.map_append, List.pairwise_append]
    exact ⟨apart, List.pairwise_singleton _ _, by simpa using new⟩

/-- A value that is set takes the place of another one or comes after all of them. -/
theorem mem_insertEntry
    {entries : List (Scalar × α)}
    {key : Scalar}
    {value : α}
    {entry : Scalar × α}
    (member : entry ∈ insertEntry key value entries) :
    entry ∈ entries ∨ entry.2 = value := by
  induction entries with
  | nil =>
      rw [List.mem_singleton.mp member]
      exact .inr rfl
  | cons first rest inductionHypothesis =>
      rw [insertEntry] at member
      split at member
      · rcases List.mem_cons.mp member with rfl | member
        · exact .inr rfl
        · exact .inl (List.mem_cons_of_mem _ member)
      · rcases List.mem_cons.mp member with rfl | member
        · exact .inl List.mem_cons_self
        · exact (inductionHypothesis member).imp (List.mem_cons_of_mem _) id

namespace Mapping

theorem keysApart_ofEntries
    (entries : Mapping) :
    KeysApart (ofEntries entries) := by
  refine List.foldlRecOn entries _ (motive := KeysApart) List.Pairwise.nil ?_
  exact fun _ apart entry _ => keysApart_insertEntry apart entry.1 entry.2

theorem mem_ofEntries
    {entries : Mapping}
    {entry : Scalar × Value}
    (member : entry ∈ ofEntries entries) :
    ∃ original ∈ entries, original.2 = entry.2 := by
  revert member
  refine List.foldlRecOn entries _
    (motive := fun mapping => entry ∈ mapping → ∃ original ∈ entries, original.2 = entry.2) nofun ?_
  intro mapping inductionHypothesis original isOriginal member
  rcases mem_insertEntry member with earlier | isValue
  · exact inductionHypothesis earlier
  · exact ⟨original, isOriginal, isValue.symm⟩

/-- Setting keys that are distinct is listing their entries. -/
theorem ofEntries_eq_self
    {entries : Mapping}
    (apart : KeysApart entries) :
    ofEntries entries = entries := by
  induction entries using List.reverseRecOn with
  | nil =>
      rfl
  | append_singleton before entry inductionHypothesis =>
      rw [KeysApart, List.map_append, List.pairwise_append] at apart
      obtain ⟨beforeApart, -, new⟩ := apart
      rw [ofEntries, List.foldl_append]
      change insertEntry entry.1 entry.2 (ofEntries before) = _
      rw [inductionHypothesis beforeApart]
      exact insertEntry_of_new (fun other member => new other member _ (by simp)) _

end Mapping

/-- No mapping inside a value has a key twice. -/
inductive Value.HasKeysApart : Value → Prop where
  | scalar (value : Scalar) : HasKeysApart (.scalar value)
  | set (members : List Scalar) : HasKeysApart (.set members)
  | pair
      {first second : Value}
      (atFirst : HasKeysApart first)
      (atSecond : HasKeysApart second) :
      HasKeysApart (.pair first second)
  | list
      {items : List Value}
      (each : ∀ item ∈ items, HasKeysApart item) :
      HasKeysApart (.list items)
  | mapping
      {entries : Mapping}
      (apart : KeysApart entries)
      (each : ∀ entry ∈ entries, HasKeysApart entry.2) :
      HasKeysApart (.mapping entries)

/-- What stands under a key of a mapping has no key twice in it either. -/
theorem Value.HasKeysApart.getD_get?
    {entries : Mapping}
    (apart : (Value.mapping entries).HasKeysApart)
    (key : String) :
    ((entries.get? key).getD .null).HasKeysApart := by
  cases found : entries.get? key with
  | none =>
      exact .scalar .null
  | some value =>
      obtain ⟨entry, isFound, rfl⟩ := Option.map_eq_some_iff.mp found
      cases apart with
      | mapping _ each =>
          exact each entry (List.mem_of_find?_eq_some isFound)

end Data

open Data

theorem Json.hasKeysApart_of_read
    {chars : List Char}
    {value : Value}
    (isRead : Json.read chars = .ok value) :
    value.HasKeysApart := by
  refine Json.holds_of_read ⟨fun scalar _ => .scalar scalar, fun _ => .list, ?_⟩ isRead
  intro entries each
  refine .mapping (Mapping.keysApart_ofEntries entries) fun entry member => ?_
  obtain ⟨original, isOriginal, isValue⟩ := Mapping.mem_ofEntries member
  exact isValue ▸ (each original isOriginal).2

namespace Yaml

/-- Whatever is present in a table has a property. -/
def Filled (holds : α → Prop) (table : Array (Option α)) : Prop :=
  ∀ value, some value ∈ table → holds value

section Tables

variable {holds : α → Prop} {table : Array (Option α)}

theorem filled_replicate
    (size : Nat) :
    Filled holds (Array.replicate size none) := by
  intro value member
  have isAbsent := (Array.mem_replicate.mp member).2
  contradiction

theorem Filled.setIfInBounds
    (filled : Filled holds table)
    (number : Nat)
    {value : α}
    (atValue : holds value) :
    Filled holds (table.setIfInBounds number (some value)) := by
  intro other member
  rcases Array.mem_or_eq_of_mem_setIfInBounds member with earlier | isValue
  · exact filled other earlier
  · cases isValue
    exact atValue

/-- An entry has the property, if what stands for an absent value has it. -/
theorem Filled.of_mem
    (filled : Filled holds table)
    {default : α}
    (atDefault : holds default)
    {entry : Option α}
    (member : entry ∈ table) :
    holds (entry.getD default) := by
  cases entry with
  | none =>
      exact atDefault
  | some value =>
      exact filled value member

theorem Filled.getD
    (filled : Filled holds table)
    {default : α}
    (atDefault : holds default)
    (number : Nat) :
    holds ((table.getD number none).getD default) := by
  rw [Array.getD_eq_getD_getElem?]
  cases found : table[number]? with
  | none =>
      exact atDefault
  | some entry =>
      exact filled.of_mem atDefault (Array.mem_of_getElem? found)

end Tables

/-- An object has no key twice. -/
def Object.HasKeysApart : Object → Prop
  | .mapping entries => KeysApart entries
  | .scalar _ | .list _ | .pairs _ | .set _ => True

/-- A step of making objects leaves no key twice, and what it returns has a property. -/
def Keeps (step : Make α) (returns : α → Prop) : Prop :=
  ∀ before value after, step.run before = .ok (value, after) →
    Filled Object.HasKeysApart before.objects →
      Filled Object.HasKeysApart after.objects ∧ returns value

section Steps

variable {returns : α → Prop} {further : β → Prop}

theorem Keeps.pure
    {value : α}
    (atValue : returns value) :
    Keeps (Pure.pure value) returns := by
  rintro before _ _ ⟨⟩ filled
  exact ⟨filled, atValue⟩

theorem Keeps.bind
    {step : Make α}
    {next : α → Make β}
    (keeps : Keeps step returns)
    (goesOn : ∀ value, returns value → Keeps (next value) further) :
    Keeps (step >>= next) further := by
  intro before value after isRun filled
  rw [StateT.run_bind] at isRun
  obtain ⟨⟨middle, between⟩, isStep, isNext⟩ := bind_eq_ok_iff.mp isRun
  obtain ⟨stillFilled, atMiddle⟩ := keeps before middle between isStep filled
  exact goesOn middle atMiddle between value after isNext stillFilled

theorem keeps_throw
    (fault : Fault) :
    Keeps (throw fault) returns := by
  rintro before value after ⟨⟩

theorem keeps_get :
    Keeps get fun making => Filled Object.HasKeysApart making.objects := by
  rintro before _ _ ⟨⟩ filled
  exact ⟨filled, filled⟩

/-- A change of anything but the objects. -/
theorem keeps_modify
    {change : Making → Making}
    (sameObjects : ∀ making, (change making).objects = making.objects) :
    Keeps (modify change) fun _ => True := by
  rintro before _ _ ⟨⟩ filled
  rw [sameObjects]
  exact ⟨filled, trivial⟩

theorem keeps_lift
    (result : Except Fault α) :
    Keeps (liftM result) fun _ => True := by
  intro before value after isRun filled
  cases result with
  | ok other =>
      cases isRun
      exact ⟨filled, trivial⟩
  | error fault =>
      contradiction

theorem Keeps.forM
    {step : α → Make Unit}
    (keeps : ∀ item, Keeps (step item) fun _ => True) :
    ∀ items : List α, Keeps (items.forM step) fun _ => True
  | [] => .pure trivial
  | item :: rest => (keeps item).bind fun _ _ => Keeps.forM keeps rest

theorem Keeps.mapM
    {step : α → Make β}
    (keeps : ∀ item, Keeps (step item) fun _ => True)
    (items : List α) :
    Keeps (items.mapM step) fun _ => True := by
  induction items with
  | nil =>
      exact .pure trivial
  | cons item rest inductionHypothesis =>
      rw [List.mapM_cons]
      exact (keeps item).bind fun _ _ => inductionHypothesis.bind fun _ _ => .pure trivial

theorem Keeps.foldlM
    {step : β → α → Make β}
    (keeps : ∀ value item, further value → Keeps (step value item) further)
    (items : List α)
    {start : β}
    (atStart : further start) :
    Keeps (items.foldlM step start) further := by
  induction items generalizing start with
  | nil =>
      exact .pure atStart
  | cons item rest inductionHypothesis =>
      rw [List.foldlM_cons]
      exact (keeps start item atStart).bind fun _ atNext => inductionHypothesis atNext

end Steps

namespace Make

theorem keeps_setObject
    (number : Nat)
    {object : Object}
    (apart : object.HasKeysApart) :
    Keeps (setObject number object) fun _ => True := by
  rintro before _ _ ⟨⟩ filled
  exact ⟨filled.setIfInBounds number apart, trivial⟩

theorem hasKeysApart_of_emptyObject?
    {tag : Tag}
    {object : Object}
    (isEmpty : emptyObject? tag = some object) :
    object.HasKeysApart := by
  cases tag with
  | sequence | orderedMap | pairs | set =>
      cases isEmpty
      trivial
  | mapping =>
      cases isEmpty
      exact List.Pairwise.nil
  | null | truth | integer | double | bytes | moment | text | merge | value | unknown =>
      contradiction

theorem keeps_begin
    (number : Nat) :
    Keeps (begin number) fun _ => True := by
  unfold begin
  refine keeps_get.bind fun making _ => ?_
  split
  · split
    · rename_i object isEmpty
      have apart := hasKeysApart_of_emptyObject? isEmpty
      exact (keeps_setObject number apart).bind fun _ _ => keeps_modify fun _ => rfl
    · refine (keeps_lift _).bind fun value _ => ?_
      exact keeps_setObject number trivial
  · exact .pure trivial

theorem keeps_key
    (number : Nat) :
    Keeps (key number) fun _ => True := by
  unfold key
  refine (keeps_begin number).bind fun _ _ => keeps_get.bind fun making _ => ?_
  split
  · exact .pure trivial
  · exact keeps_throw _

theorem keeps_demand
    (found : Option α) :
    Keeps (demand found) fun _ => True := by
  cases found with
  | some value =>
      exact .pure trivial
  | none =>
      exact keeps_throw _

theorem keeps_nodes :
    Keeps nodes fun _ => True :=
  keeps_get.bind fun _ _ => .pure trivial

/-- The keys of a mapping are set one after the other. -/
theorem keeps_keyedEntries
    (number : Nat) :
    Keeps (keyedEntries number) KeysApart := by
  unfold keyedEntries
  refine keeps_nodes.bind fun _ _ => (keeps_demand _).bind fun _ _ => ?_
  refine keeps_nodes.bind fun _ _ => keeps_get.bind fun _ _ => ?_
  refine (keeps_lift _).bind fun flattened _ => Keeps.bind (keeps_modify fun _ => rfl) fun _ _ => ?_
  refine Keeps.foldlM (fun entries entry apart => ?_) _ List.Pairwise.nil
  refine (keeps_key entry.1).bind fun key _ => (keeps_begin entry.2).bind fun _ _ => ?_
  exact .pure (keysApart_insertEntry apart key entry.2)

theorem keeps_onlyEntry
    (number : Nat) :
    Keeps (onlyEntry number) fun _ => True := by
  refine keeps_nodes.bind fun _ _ => ?_
  split
  · exact .pure trivial
  · exact keeps_throw _

theorem keeps_pairEntries
    (number : Nat) :
    Keeps (pairEntries number) fun _ => True := by
  refine keeps_nodes.bind fun _ _ => (keeps_demand _).bind fun items _ => ?_
  refine Keeps.mapM (fun item => ?_) items
  refine (keeps_onlyEntry item).bind fun entry _ => ?_
  exact (keeps_begin _).bind fun _ _ => (keeps_begin _).bind fun _ _ => .pure trivial

theorem keeps_listItems
    (number : Nat) :
    Keeps (listItems number) fun _ => True := by
  refine keeps_nodes.bind fun _ _ => (keeps_demand _).bind fun items _ => ?_
  exact (Keeps.forM keeps_begin items).bind fun _ _ => .pure trivial

theorem keeps_complete
    (number : Nat) :
    Keeps (complete number) fun _ => True := by
  refine keeps_nodes.bind fun nodes _ => ?_
  cases nodes.tag number with
  | sequence =>
      exact (keeps_listItems number).bind fun _ _ => keeps_setObject number trivial
  | orderedMap | pairs =>
      exact (keeps_pairEntries number).bind fun _ _ => keeps_setObject number trivial
  | set =>
      exact (keeps_keyedEntries number).bind fun _ _ => keeps_setObject number trivial
  | mapping =>
      exact (keeps_keyedEntries number).bind fun _ apart => keeps_setObject number apart
  | null | truth | integer | double | bytes | moment | text | merge | value | unknown =>
      exact .pure trivial

theorem keeps_completeFrom
    (fuel place : Nat) :
    Keeps (completeFrom place fuel) fun _ => True := by
  induction fuel generalizing place with
  | zero =>
      exact .pure trivial
  | succ fuel inductionHypothesis =>
      refine keeps_get.bind fun making _ => ?_
      cases making.begun[place]? with
      | none =>
          exact .pure trivial
      | some number =>
          exact (keeps_complete number).bind fun _ _ => inductionHypothesis (place + 1)

end Make

/-- No object that is made has a key twice. -/
theorem filled_objects
    {nodes : NodeTable}
    {number : Nat}
    {objects : ObjectTable}
    (areMade : nodes.objects number = .ok objects) :
    Filled Object.HasKeysApart objects := by
  obtain ⟨⟨_, made⟩, isRun, rfl⟩ := exceptMap_eq_ok_iff.mp areMade
  have keeps := (Make.keeps_begin number).bind fun _ _ =>
    Make.keeps_completeFrom (nodes.size + 1) 0
  exact (keeps _ _ made isRun (filled_replicate _)).1

section Values

/-- A step of finding values adds none with a key twice. -/
theorem filled_forM
    {step : Nat → StateT (Array (Option Value)) Option Unit}
    (keeps :
      ∀ number found after, (step number).run found = some ((), after) →
        Filled Value.HasKeysApart found → Filled Value.HasKeysApart after)
    {numbers : List Nat}
    {found after : Array (Option Value)}
    (isRun : (numbers.forM step).run found = some ((), after))
    (values : Filled Value.HasKeysApart found) :
    Filled Value.HasKeysApart after := by
  induction numbers generalizing found with
  | nil =>
      cases isRun
      exact values
  | cons number rest inductionHypothesis =>
      obtain ⟨⟨_, between⟩, isStep, isRest⟩ := Option.bind_eq_some_iff.mp isRun
      exact inductionHypothesis isRest (keeps number found between isStep values)

namespace Object

theorem hasKeysApart_null :
    HasKeysApart (.scalar .null) :=
  trivial

theorem hasKeysApart_emptied
    (object : Object) :
    object.emptied.HasKeysApart := by
  cases object with
  | mapping entries =>
      exact List.Pairwise.nil
  | scalar | list | pairs | set =>
      trivial

theorem hasKeysApart_value
    {object : Object}
    (apart : object.HasKeysApart)
    {part : Nat → Value}
    (atParts : ∀ number, (part number).HasKeysApart) :
    (object.value part).HasKeysApart := by
  cases object with
  | scalar value =>
      exact .scalar value
  | set members =>
      exact .set members
  | list items =>
      exact .list (List.forall_mem_map.mpr fun number _ => atParts number)
  | pairs entries =>
      exact .list (List.forall_mem_map.mpr fun entry _ => .pair (atParts _) (atParts _))
  | mapping entries =>
      refine .mapping ?_ (List.forall_mem_map.mpr fun entry _ => atParts _)
      rwa [KeysApart, List.map_map]

end Object

variable {table : ObjectTable} (filled : Filled Object.HasKeysApart table)

theorem hasKeysApart_getD_map
    {transform : Option Object → Value}
    (each : ∀ object ∈ table, (transform object).HasKeysApart)
    (number : Nat) :
    ((table.map transform).getD number .null).HasKeysApart := by
  rw [Array.getD_eq_getD_getElem?, Array.getElem?_map]
  cases found : table[number]? with
  | none =>
      exact .scalar .null
  | some object =>
      exact each object (Array.mem_of_getElem? found)

include filled

/-- The values that are found keep what the objects have; the induction is on the fuel. -/
theorem filled_find
    {fuel number : Nat}
    {found after : Array (Option Value)}
    (isFound : (table.find fuel number).run found = some ((), after))
    (values : Filled Value.HasKeysApart found) :
    Filled Value.HasKeysApart after := by
  induction fuel generalizing number found after with
  | zero =>
      contradiction
  | succ fuel inductionHypothesis =>
      unfold ObjectTable.find at isFound
      change (if (found.getD number none).isNone then _ else _ : StateT _ Option Unit).run found = _
        at isFound
      split at isFound
      · obtain ⟨⟨_, between⟩, areParts, isSet⟩ := Option.bind_eq_some_iff.mp isFound
        have inParts :=
          filled_forM (fun _ _ _ isStep => inductionHypothesis isStep) areParts values
        have apart := filled.getD Object.hasKeysApart_null number
        cases isSet
        exact inParts.setIfInBounds number
          (Object.hasKeysApart_value apart (inParts.getD (.scalar .null)))
      · cases isFound
        exact values

theorem hasKeysApart_of_value?
    {number : Nat}
    {value : Value}
    (isValue : table.value? number = some value) :
    value.HasKeysApart := by
  obtain ⟨⟨_, found⟩, isFound, atNumber⟩ := Option.bind_eq_some_iff.mp isValue
  have inFound := filled_find filled isFound (filled_replicate _)
  have atValue := inFound.getD (.scalar .null) number
  rwa [show found.getD number none = some value from atNumber] at atValue

/-- The outer levels keep what the objects have; the induction is on their number. -/
theorem hasKeysApart_outerValues
    (levels number : Nat) :
    ((table.outerValues levels).getD number .null).HasKeysApart := by
  induction levels generalizing number with
  | zero =>
      refine hasKeysApart_getD_map (fun object _ => ?_) number
      exact Object.hasKeysApart_value (Object.hasKeysApart_emptied _) fun _ => .scalar .null
  | succ levels inductionHypothesis =>
      refine hasKeysApart_getD_map (fun object member => ?_) number
      exact Object.hasKeysApart_value (filled.of_mem Object.hasKeysApart_null member)
        inductionHypothesis

theorem hasKeysApart_found
    (number : Nat) :
    (table.found number).value.HasKeysApart := by
  unfold ObjectTable.found
  split
  · rename_i value isValue
    exact hasKeysApart_of_value? filled isValue
  · exact hasKeysApart_outerValues filled _ number

end Values

theorem hasKeysApart_of_read
    {chars : List Char}
    {found : Found}
    (isRead : read chars = .ok found) :
    found.value.HasKeysApart := by
  unfold read at isRead
  split at isRead
  · contradiction
  · obtain ⟨document, -, isValue⟩ := bind_eq_ok_iff.mp isRead
    unfold Document.value at isValue
    split at isValue
    · obtain ⟨objects, areMade, rfl⟩ := exceptMap_eq_ok_iff.mp isValue
      exact hasKeysApart_found (filled_objects areMade) _
    · cases isValue
      exact .scalar .null

end Yaml

namespace Source

theorem hasKeysApart_of_objectOr
    {fault : String → LoadFault}
    {value : Value}
    {isEndless : Bool}
    {loaded : Loaded}
    (isObject : objectOr fault value isEndless = .ok loaded)
    (apart : value.HasKeysApart) :
    (Value.mapping loaded.entries).HasKeysApart := by
  cases value with
  | mapping entries =>
      cases isObject
      exact apart
  | scalar | set | pair | list =>
      contradiction

theorem hasKeysApart_of_readJson
    {path : String}
    {bytes : List UInt8}
    {loaded : Loaded}
    (isRead : readJson path bytes = .ok loaded) :
    (Value.mapping loaded.entries).HasKeysApart := by
  obtain ⟨chars, -, isLoaded⟩ := bind_eq_ok_iff.mp isRead
  split at isLoaded
  · rename_i value isValue
    exact hasKeysApart_of_objectOr isLoaded (Json.hasKeysApart_of_read isValue)
  · contradiction

theorem hasKeysApart_of_readYaml
    {path : String}
    {bytes : List UInt8}
    {loaded : Loaded}
    (isRead : readYaml path bytes = .ok loaded) :
    (Value.mapping loaded.entries).HasKeysApart := by
  obtain ⟨chars, -, isLoaded⟩ := bind_eq_ok_iff.mp isRead
  split at isLoaded
  · rename_i found isFound
    exact hasKeysApart_of_objectOr isLoaded (Yaml.hasKeysApart_of_read isFound)
  · contradiction

theorem hasKeysApart_of_readAs
    {fileType path : String}
    {bytes : List UInt8}
    {loaded : Loaded}
    (isRead : readAs fileType path bytes = .ok loaded) :
    (Value.mapping loaded.entries).HasKeysApart := by
  unfold readAs at isRead
  split_ifs at isRead
  · exact hasKeysApart_of_readYaml isRead
  · exact hasKeysApart_of_readJson isRead
  · unfold readEither at isRead
    split at isRead
    · rename_i isJson
      cases isRead
      exact hasKeysApart_of_readJson isJson
    · split at isRead
      · exact hasKeysApart_of_readYaml isRead
      · contradiction

/-- No mapping in a loaded document has a key twice. -/
theorem hasKeysApart_of_load
    {tree : FileTree}
    {path : FilePath}
    {loaded : Loaded}
    (loads : load tree path = .ok loaded) :
    (Value.mapping loaded.entries).HasKeysApart := by
  obtain ⟨isPresent, -, loads⟩ := bind_eq_ok_iff.mp loads
  split at loads
  · contradiction
  · obtain ⟨isFile, -, loads⟩ := bind_eq_ok_iff.mp loads
    split at loads
    · contradiction
    · obtain ⟨bytes, -, isRead⟩ := bind_eq_ok_iff.mp loads
      exact hasKeysApart_of_readAs isRead

end Source

end ZodSchemas
