import Bindery.Proofs.Results
import Bindery.Storage.Source

/-! What may be wrong with the data in a file. A file that cannot be read says so and nothing else; one that can be read is
in no encoding, is not well-formed, or holds a value that there is none of. -/

namespace Bindery

/-- The shortest way to speak of faults. -/
def Phrases.plain : Phrases :=
  ⟨fun _ => "malformed", Invalid.headline⟩

namespace Source

variable {format : DataFormat} {bytes : Bytes} {error : SourceError}

theorem data_of_error (format : DataFormat) (error : FileError) : data format (.error error) = .error (.file error) :=
  rfl

theorem data_of_encoding {fault : EncodingError} (undecodable : Utf8.decode bytes = .error fault) :
    data format (.ok bytes) = .error (.encoding fault) := by
  have read : Source.text (.ok bytes) = .error (.encoding fault) := by
    show ((Utf8.decode bytes).mapError SourceError.encoding >>= fun text => pure (Text.unifyLineEnds text)) = _
    rw [undecodable]
    rfl
  rw [data, read]
  rfl

theorem data_of_text {text : Text} (decoded : Utf8.decode bytes = .ok text) :
    data format (.ok bytes) = match format with
      | .yaml => readYaml (Text.unifyLineEnds text)
      | .json => readJson (Text.unifyLineEnds text) := by
  have read : Source.text (.ok bytes) = .ok (Text.unifyLineEnds text) := by
    show ((Utf8.decode bytes).mapError SourceError.encoding >>= fun text => pure (Text.unifyLineEnds text)) = _
    rw [decoded]
    rfl
  rw [data, read]
  rfl

theorem readYaml_eq_error {text : Text} (failed : readYaml text = .error error) :
    error = .malformed .yaml ∨ ∃ fault, error = .value fault := by
  obtain ⟨fault, _, rfl⟩ := mapError_eq_error.mp failed
  cases fault with
  | malformed => exact .inl rfl
  | value fault => exact .inr ⟨fault, rfl⟩

theorem readJson_eq_error {text : Text} (failed : readJson text = .error error) :
    error = .malformed .json ∨ ∃ fault, error = .value fault := by
  obtain ⟨fault, _, rfl⟩ := mapError_eq_error.mp failed
  cases fault with
  | malformed => exact .inl rfl
  | number fault => exact .inr ⟨.number fault, rfl⟩

/-- What may be wrong with a file that can be read. -/
theorem data_eq_error (failed : data format (.ok bytes) = .error error) :
    (∃ fault, Utf8.decode bytes = .error fault ∧ error = .encoding fault) ∨ error = .malformed format ∨
      ∃ fault, error = .value fault := by
  cases decoded : Utf8.decode bytes with
  | error fault =>
    rw [data_of_encoding decoded] at failed
    cases failed
    exact .inl ⟨fault, rfl, rfl⟩
  | ok text =>
    rw [data_of_text decoded] at failed
    cases format with
    | yaml => exact .inr (readYaml_eq_error failed)
    | json => exact .inr (readJson_eq_error failed)

end Source
end Bindery
