import Bindery.Proofs.NodeFiles
import Bindery.Proofs.SourceFaults

/-! How the reading of a file of nodes ends. It gives one node for each entry, in order, or an error. The error is laid to
the file by name, except where the path is none, the text is in no encoding, a value is announced that there is none of, or
a number of an entry has no end. -/

namespace Bindery
open Check (Fields)
open Data (fieldOf?)

/-! ### Numbers without end -/

namespace Record
variable {fields : Fields} {value : Data}

theorem number_ne_infinite (error : NumberError) : RecordError.number error ≠ .infiniteNumber :=
  nofun

theorem refused_ne_infinite (invalid : Invalid) : RecordError.refused invalid ≠ .infiniteNumber :=
  nofun

/-- Only a float without end is a number without end. -/
theorem integer_eq_infinite : integer value = .error .infiniteNumber ↔ ∃ negative, value = .float (.infinite negative) := by
  cases value with
  | float number => cases number <;> simp [integer, Binary64.truncate?]
  | text text => exact iff_of_false (mapError_ne_error number_ne_infinite (Text.readInt text)) nofun
  | _ => exact iff_of_false nofun nofun

theorem textOf_ne_infinite (value : Data) : textOf value ≠ .error .infiniteNumber :=
  mapError_ne_error number_ne_infinite value.toText

theorem field_ne_infinite (fields : Fields) (name : Text) : field fields name ≠ .error .infiniteNumber := by
  unfold field
  cases fieldOf? fields name <;> exact nofun

theorem items_ne_infinite (value : Data) : items value ≠ .error .infiniteNumber := by
  cases value <;> exact nofun

theorem tag_ne_infinite (value : Data) : tag value ≠ .error .infiniteNumber := by
  unfold tag
  split
  next => exact bind_ne_error (textOf_ne_infinite _) fun _ => bind_ne_error (textOf_ne_infinite _) fun _ => nofun
  next => split <;> exact nofun

theorem tags_ne_infinite (fields : Fields) : tags fields ≠ .error .infiniteNumber := by
  unfold tags
  split
  next => exact nofun
  next value _ => exact bind_ne_error (items_ne_infinite value) fun items => mapM_ne_error tag_ne_infinite items

theorem owner_ne_infinite (fields : Fields) : owner fields ≠ .error .infiniteNumber := by
  unfold owner
  split
  next value _ => exact textOf_ne_infinite value
  next => exact bind_ne_error (field_ne_infinite fields _) textOf_ne_infinite

theorem createdAt_eq_infinite :
    createdAt fields = .error .infiniteNumber ↔
      ∃ negative, fieldOf? fields "created_at" = some (.float (.infinite negative)) := by
  unfold createdAt presentField?
  rw [integer_eq_infinite]
  cases fieldOf? fields "created_at" with
  | none => exact iff_of_false nofun nofun
  | some value =>
    rw [Option.filter_some]
    split
    next => simp
    next absent =>
      refine iff_of_false nofun ?_
      rintro ⟨negative, same⟩
      cases same
      exact absent rfl

end Record

/-- A record with a number that has no end: its kind, or its time if everything before that can be read. -/
inductive HasEndlessNumber (fields : Fields) : Prop where
  | kind {negative : Bool} (found : fieldOf? fields "kind" = some (.float (.infinite negative)))
  | createdAt {negative : Bool} {kind : Int} {tags : List Tag} {id owner : Text}
      (numbered : Record.field fields "kind" >>= Record.integer = .ok kind) (tagged : Record.tags fields = .ok tags)
      (named : Record.field fields "id" >>= Record.textOf = .ok id) (owned : Record.owner fields = .ok owner)
      (found : fieldOf? fields "created_at" = some (.float (.infinite negative)))

namespace Record
variable {fields : Fields}

theorem kind_eq_infinite :
    field fields "kind" >>= integer = .error .infiniteNumber ↔
      ∃ negative, fieldOf? fields "kind" = some (.float (.infinite negative)) := by
  refine bind_eq_error.trans ((or_iff_right (field_ne_infinite _ _)).trans ?_)
  simp only [integer_eq_infinite, field]
  cases fieldOf? fields "kind" <;> simp

/-- A node is refused for a number without end exactly if its record has one where it is looked at. -/
theorem ofRecord_eq_infinite {indexKinds : List Int} :
    Node.ofRecord indexKinds fields = .error .infiniteNumber ↔ HasEndlessNumber fields := by
  -- Fetching a field and making a value of it counts as one step, so that each step but two is known not to fail this way.
  have steps : Node.ofRecord indexKinds fields = do
      let kind ← field fields "kind" >>= integer
      let tags ← tags fields
      let id ← field fields "id" >>= textOf
      let owner ← owner fields
      let createdAt ← createdAt fields
      let body ← (Checked.named "ContentNode" (Checked.within "body" (Check.text (body fields)))).mapError .refused
      return ⟨id, owner, .ofNumber indexKinds kind, some kind, tags, body, createdAt⟩ := by
    simp only [Node.ofRecord, bind_assoc]
  have named_ne : field fields "id" >>= textOf ≠ .error .infiniteNumber :=
    bind_ne_error (field_ne_infinite _ _) textOf_ne_infinite
  rw [steps]
  constructor
  · intro failed
    obtain endless | ⟨kind, numbered, failed⟩ := bind_eq_error.mp failed
    · obtain ⟨negative, found⟩ := kind_eq_infinite.mp endless
      exact .kind found
    obtain endless | ⟨tags, tagged, failed⟩ := bind_eq_error.mp failed
    · exact absurd endless (tags_ne_infinite fields)
    obtain endless | ⟨id, named, failed⟩ := bind_eq_error.mp failed
    · exact absurd endless named_ne
    obtain endless | ⟨owner, owned, failed⟩ := bind_eq_error.mp failed
    · exact absurd endless (owner_ne_infinite fields)
    obtain endless | ⟨createdAt, timed, failed⟩ := bind_eq_error.mp failed
    · obtain ⟨negative, found⟩ := createdAt_eq_infinite.mp endless
      exact .createdAt numbered tagged named owned found
    · exact absurd failed (bind_ne_error (mapError_ne_error refused_ne_infinite _) fun _ => nofun)
  · rintro (⟨found⟩ | ⟨numbered, tagged, named, owned, found⟩)
    · rw [kind_eq_infinite.mpr ⟨_, found⟩]
      rfl
    · rw [numbered, tagged, named, owned, createdAt_eq_infinite.mpr ⟨_, found⟩]
      rfl

end Record

/-! ### Messages -/

namespace Text

/-- A text that begins otherwise than the label of a file. -/
def BeginsOtherwise (text : Text) : Prop :=
  text.head? ≠ some 'I'

theorem beginsOtherwise {text : Text} {c : Char} (first : text.head? = some c) (other : c ≠ 'I') : text.BeginsOtherwise := by
  intro same
  exact other (Option.some.inj (first.symm.trans same))

theorem beginsOtherwise_quoted (text : Text) : (quoted text).BeginsOtherwise := by
  unfold quoted
  split <;> exact beginsOtherwise rfl (by decide)

end Text
open Text (beginsOtherwise beginsOtherwise_quoted)

theorem NumberError.beginsOtherwise_message (error : NumberError) : error.message.BeginsOtherwise := by
  cases error <;> exact beginsOtherwise rfl (by decide)

theorem ValueFault.beginsOtherwise_message (fault : ValueFault) : fault.message.BeginsOtherwise := by
  cases fault with
  | number error => exact error.beginsOtherwise_message
  | notTruthValue word => exact beginsOtherwise_quoted word
  | calendar error => cases error <;> exact beginsOtherwise rfl (by decide)
  | _ => exact beginsOtherwise rfl (by decide)

namespace NodeFileError

theorem not_label_of_beginsOtherwise {path text : Text} (begins : text.BeginsOtherwise) : ¬ label path <+: text := by
  rintro ⟨rest, rfl⟩
  exact begins rfl

/-- Errors that are not laid to a file. -/
theorem isLabelled_eq_false {error : NodeFileError} (unlabelled : error.isLabelled = false) :
    (∃ path file, error = .source path (.file file) ∧ file.fault.number? = none) ∨
      (∃ path fault, error = .source path (.encoding fault)) ∨ (∃ path fault, error = .source path (.value fault)) ∨
        ∃ path position, error = .record path position .infiniteNumber := by
  cases error with
  | source path error =>
    cases error with
    | file file => exact .inl ⟨path, file, rfl, Option.isNone_iff_eq_none.mp (Option.isSome_eq_false_iff.mp unlabelled)⟩
    | encoding fault => exact .inr (.inl ⟨path, fault, rfl⟩)
    | malformed format => cases unlabelled
    | value fault => exact .inr (.inr (.inl ⟨path, fault, rfl⟩))
  | notList path => cases unlabelled
  | noRecord path position => cases unlabelled
  | record path position error =>
    cases error with
    | infiniteNumber => exact .inr (.inr (.inr ⟨path, position, rfl⟩))
    | _ => cases unlabelled

/-- An error speaks for itself in words that nobody could take for the label. -/
theorem label_prefix_message (phrases : Phrases) (error : NodeFileError) :
    label error.path <+: error.message phrases ↔ error.isLabelled = true := by
  unfold message
  cases labelled : error.isLabelled with
  | true => exact iff_of_true (List.prefix_append _ _) rfl
  | false =>
    refine iff_of_false (not_label_of_beginsOtherwise ?_) Bool.false_ne_true
    obtain ⟨path, file, rfl, unnumbered⟩ | ⟨path, fault, rfl⟩ | ⟨path, fault, rfl⟩ | ⟨path, position, rfl⟩ :=
      isLabelled_eq_false labelled
    · show file.message.BeginsOtherwise
      unfold FileError.message
      rw [unnumbered]
      cases named : file.fault with
      | nullInPath => exact beginsOtherwise rfl (by decide)
      | _ => rw [named] at unnumbered; cases unnumbered
    · exact beginsOtherwise rfl (by decide)
    · exact fault.beginsOtherwise_message
    · exact beginsOtherwise rfl (by decide)

theorem isOfContent_of_isLabelled {error : NodeFileError} (labelled : error.isLabelled = true) : error.isOfContent = true := by
  cases error with
  | source path error =>
    cases error with
    | value fault => cases labelled
    | _ => rfl
  | record path position error =>
    cases error with
    | infiniteNumber => cases labelled
    | _ => rfl
  | _ => rfl

end NodeFileError

/-! ### Files -/

namespace NodeFile
variable {path : Text} {indexKinds : List Int} {source : Source} {error : NodeFileError}

/-- Files whose errors are not laid to them. -/
inductive LosesLabel (path : Text) (indexKinds : List Int) : Source → Prop where
  | ofPath {file : FileError} (unnumbered : file.fault.number? = none) : LosesLabel path indexKinds (.error file)
  | ofEncoding {bytes : Bytes} {fault : EncodingError} (undecodable : Utf8.decode bytes = .error fault) :
      LosesLabel path indexKinds (.ok bytes)
  | ofValue {bytes : Bytes} {fault : ValueFault} (read : Source.data (format path) (.ok bytes) = .error (.value fault)) :
      LosesLabel path indexKinds (.ok bytes)
  | ofNumber {bytes : Bytes} {before after : List Data} {fields : Fields} {nodes : List Node}
      (read : Source.data (format path) (.ok bytes) = .ok (.list (before ++ .map fields :: after)))
      (sound : List.Forall₂ (IsEntryOf indexKinds) before nodes) (endless : HasEndlessNumber fields) :
      LosesLabel path indexKinds (.ok bytes)

theorem readEntry_of_endless {position : Nat} {fields : Fields} (endless : HasEndlessNumber fields) :
    readEntry path indexKinds position (.map fields) = .error (.record path position .infiniteNumber) :=
  mapError_eq_error.mpr ⟨_, Record.ofRecord_eq_infinite.mpr endless, rfl⟩

theorem path_of_nodes (failed : NodeFile.nodes path indexKinds source = .error error) : error.path = path := by
  obtain ⟨fault, _, rfl⟩ | rfl | ⟨items, _, failed⟩ := nodes_eq_error failed
  · rfl
  · rfl
  · obtain ⟨_, _, _, _, _, _, failed⟩ := nodesFrom_eq_error.mp failed
    obtain rfl | ⟨_, _, _, _, rfl⟩ := readEntry_eq_error failed <;> rfl

theorem losesLabel_iff :
    LosesLabel path indexKinds source ↔
      ∃ error, NodeFile.nodes path indexKinds source = .error error ∧ error.isLabelled = false := by
  constructor
  · intro loses
    cases loses with
    | ofPath unnumbered => exact ⟨_, nodes_of_error (Source.data_of_error _ _), congrArg Option.isSome unnumbered⟩
    | ofEncoding undecodable => exact ⟨_, nodes_of_error (Source.data_of_encoding undecodable), rfl⟩
    | ofValue read => exact ⟨_, nodes_of_error read, rfl⟩
    | ofNumber read sound endless =>
      rw [nodes_of_list read]
      exact ⟨_, nodesFrom_eq_error.mpr ⟨_, _, _, _, rfl, sound, readEntry_of_endless endless⟩, rfl⟩
  · rintro ⟨error, failed, unlabelled⟩
    obtain ⟨fault, read, rfl⟩ | rfl | ⟨items, read, failed⟩ := nodes_eq_error failed
    · cases source with
      | error file =>
        cases read
        exact .ofPath (Option.isNone_iff_eq_none.mp (Option.isSome_eq_false_iff.mp unlabelled))
      | ok bytes =>
        obtain ⟨fault, undecodable, rfl⟩ | rfl | ⟨fault, rfl⟩ := Source.data_eq_error read
        · exact .ofEncoding undecodable
        · cases unlabelled
        · exact .ofValue read
    · cases unlabelled
    · obtain ⟨before, nodes, item, after, rfl, sound, failed⟩ := nodesFrom_eq_error.mp failed
      obtain rfl | ⟨fields, fault, rfl, refused, rfl⟩ := readEntry_eq_error failed
      · cases unlabelled
      · cases source with
        | error file => cases read
        | ok bytes =>
          obtain ⟨_, _, same, _⟩ | ⟨_, _, same⟩ | ⟨_, _, same⟩ | ⟨_, _, same⟩ :=
            NodeFileError.isLabelled_eq_false unlabelled
          all_goals cases same
          exact .ofNumber read sound (Record.ofRecord_eq_infinite.mp refused)

/-- For every path, every list of kinds and every file, whether it can be read or not, the reading gives one node for each
entry, in order, or an error of content that names the file in front, exactly if the file keeps its label. -/
theorem nodes_or_label_iff (path : Text) (indexKinds : List Int) (source : Source) (phrases : Phrases) :
    (∀ nodes, NodeFile.nodes path indexKinds source = .ok nodes ↔
      ∃ items, source.data (format path) = .ok (.list items) ∧ List.Forall₂ (IsEntryOf indexKinds) items nodes) ∧
    ((∃ nodes, NodeFile.nodes path indexKinds source = .ok nodes) ∨
        (∃ error, NodeFile.nodes path indexKinds source = .error error ∧ error.isOfContent = true ∧
          NodeFileError.label path <+: error.message phrases) ↔
      ¬ LosesLabel path indexKinds source) := by
  refine ⟨fun nodes => nodes_eq_ok, ?_⟩
  rw [losesLabel_iff]
  constructor
  · rintro (⟨nodes, read⟩ | ⟨error, failed, _, labelled⟩) ⟨other, failed', unlabelled⟩
    · cases read.symm.trans failed'
    · obtain rfl := Except.error.inj (failed.symm.trans failed')
      rw [← path_of_nodes failed, NodeFileError.label_prefix_message] at labelled
      cases labelled.symm.trans unlabelled
  · intro kept
    cases read : NodeFile.nodes path indexKinds source with
    | ok nodes => exact .inl ⟨nodes, rfl⟩
    | error error =>
      have labelled : error.isLabelled = true := by
        by_contra unlabelled
        exact kept ⟨error, read, Bool.eq_false_iff.mpr unlabelled⟩
      refine .inr ⟨error, rfl, NodeFileError.isOfContent_of_isLabelled labelled, ?_⟩
      rw [← path_of_nodes read, NodeFileError.label_prefix_message]
      exact labelled

/-! An entry of an infinite kind. -/

def infiniteKind : Source :=
  .ok (Utf8.encode "- \x7bid: a, pubkey: b, kind: .inf\x7d\n")

def isOneOfInfiniteKind : Data → Bool
  | .list [.map fields] =>
    match fieldOf? fields "kind" with
    | some (.float (.infinite _)) => true
    | _ => false
  | _ => false

theorem infinite_kind_loses_label :
    ¬ ((∃ nodes, NodeFile.nodes "nodes.yml" [30040] infiniteKind = .ok nodes) ∨
        ∃ error, NodeFile.nodes "nodes.yml" [30040] infiniteKind = .error error ∧ error.isOfContent = true ∧
          NodeFileError.label "nodes.yml" <+: error.message .plain) := by
  have shaped : (infiniteKind.data (format "nodes.yml")).toOption.any isOneOfInfiniteKind = true := by decide +kernel
  obtain ⟨value, read, shape⟩ := exists_ok_of_any shaped
  have endless : ∃ fields, value = .list [.map fields] ∧ HasEndlessNumber fields := by
    unfold isOneOfInfiniteKind at shape
    split at shape
    next fields =>
      split at shape
      next negative found => exact ⟨fields, rfl, .kind found⟩
      next => cases shape
    next => cases shape
  obtain ⟨fields, rfl, endless⟩ := endless
  have loses : LosesLabel "nodes.yml" [30040] infiniteKind := by
    rw [← List.nil_append [Data.map fields]] at read
    exact .ofNumber read .nil endless
  exact fun kept => (nodes_or_label_iff "nodes.yml" [30040] infiniteKind .plain).2.mp kept loses

end NodeFile
end Bindery
