/-
  GraphSchema.Proofs.Report.Envelope — which formatted errors read back from their JSON.

  Locations are left out where there are none and details where there are none, and what is
  left out reads as none, so both come back whatever the other does. Details may also be null,
  which is a value like any other to the writer but no details to the reader. A formatted
  error reads back exactly if it is not of this kind, and one of this kind without its
  details; it makes no difference whether the members are as they were written or sorted.
  - `reads_back_iff`: all this of any formatted error.
  - `outage_read_back`: locations and details that hold a null and an empty object.
  - `null_details_lost`: null details, which come back as none.
-/

import GraphSchema.Proofs.Json.Decode
import GraphSchema.Report.Envelope

namespace GraphSchema

instance : SortedCoding SourceLocation where
  decode?_sorted location := by
    have hnd : ([("line", encode location.line), ("column", encode location.column)].map
        Prod.fst).Nodup := by simp
    obtain ⟨sorted, hsorted, hlookup⟩ := Json.exists_sorted_members hnd
    have hline : sorted.lookup "line" = some (encode location.line).sortMembers := hlookup "line"
    have hcolumn : sorted.lookup "column" = some (encode location.column).sortMembers :=
      hlookup "column"
    have hread : (decode? (Json.object sorted) : Option SourceLocation) =
        ((sorted.lookup "line").bind decode?).bind fun line =>
          ((sorted.lookup "column").bind decode?).bind fun column => some ⟨line, column⟩ := rfl
    have hencode : encode location =
        .object [("line", encode location.line), ("column", encode location.column)] := rfl
    rw [hencode, hsorted, hread, hline, hcolumn, Option.bind_some, Option.bind_some,
      decode?_sorted, decode?_sorted]
    rfl

namespace FormattedError

/-! ## Written members -/

theorem encode_eq (error : FormattedError) : encode error = .object error.members := rfl

theorem nodup_members (error : FormattedError) : (error.members.map Prod.fst).Nodup := by
  rcases error with ⟨message, locations, details⟩
  cases locations <;> cases details <;> simp [members]

theorem lookup_message (error : FormattedError) :
    error.members.lookup "message" = some (.string error.message) := rfl

theorem lookup_locations (error : FormattedError) :
    error.members.lookup "locations" =
      if error.locations.isEmpty then none else some (encode error.locations) := by
  rcases error with ⟨message, locations, details⟩
  cases locations <;> cases details <;> rfl

theorem lookup_details (error : FormattedError) :
    error.members.lookup "details" = error.details := by
  rcases error with ⟨message, locations, details⟩
  cases locations <;> cases details <;> rfl

/-! ## Reading -/

/-- The details that are told from none. -/
def toldDetails (error : FormattedError) : Option Json :=
  match error.details with
  | some .null => none
  | details => details

theorem optional?_details (error : FormattedError) :
    Decode.optional? error.details = some error.toldDetails := by
  rcases error with ⟨message, locations, details⟩
  cases details with
  | none => rfl
  | some details => cases details <;> rfl

/-- What is read of the locations that are found or missing. -/
def locations? : Option Json → Option (List SourceLocation)
  | none => some []
  | some written => decode? written

theorem decode?_object (found : List (String × Json)) :
    (decode? (.object found) : Option FormattedError) =
      ((found.lookup "message").bind decode?).bind fun message =>
        (locations? (found.lookup "locations")).bind fun locations =>
          (Decode.optional? (found.lookup "details")).bind fun details =>
            some ⟨message, locations, details⟩ := by
  cases hfound : found.lookup "locations" <;> simp only [decode?, hfound] <;> rfl

/-- What is found under the three names is all that is read. -/
theorem decode?_of_lookup {found : List (String × Json)} {error : FormattedError}
    (hmessage : found.lookup "message" = some (.string error.message))
    (hlocations : locations? (found.lookup "locations") = some error.locations)
    (hdetails : found.lookup "details" = error.details) :
    decode? (.object found) = some { error with details := error.toldDetails } := by
  rw [decode?_object, hmessage, hlocations, hdetails, optional?_details]
  rfl

theorem decode?_encode_eq (error : FormattedError) :
    decode? (encode error) = some { error with details := error.toldDetails } := by
  rw [encode_eq]
  refine decode?_of_lookup error.lookup_message ?_ error.lookup_details
  rw [lookup_locations]
  split
  · rename_i hempty
    rw [List.isEmpty_iff.mp hempty]
    rfl
  · exact decode?_encode error.locations

theorem decode?_sorted_eq {error : FormattedError}
    (hdetails : ∀ details, error.details = some details → details.Canonical) :
    decode? (encode error).sortMembers = some { error with details := error.toldDetails } := by
  obtain ⟨sorted, hsorted, hlookup⟩ := Json.exists_sorted_members error.nodup_members
  rw [encode_eq, hsorted]
  refine decode?_of_lookup ?_ ?_ ?_
  · rw [hlookup, lookup_message]
    rfl
  · rw [hlookup, lookup_locations]
    split
    · rename_i hempty
      rw [List.isEmpty_iff.mp hempty]
      rfl
    · exact decode?_sorted error.locations
  · rw [hlookup, lookup_details]
    cases hfound : error.details with
    | none => rfl
    | some details =>
      exact congrArg some (Json.sortMembers_of_canonical (hdetails details hfound))

theorem toldDetails_eq_iff {error : FormattedError} :
    error.toldDetails = error.details ↔ error.details ≠ some .null := by
  rcases error with ⟨message, locations, details⟩
  cases details with
  | none => simp [toldDetails]
  | some details => cases details <;> simp [toldDetails]

/-- A formatted error reads back from what it is written as exactly if its details are not
null, and then without them; so it does with the members sorted at every depth. -/
theorem reads_back_iff (error : FormattedError) :
    (decode? (encode error) = some error ↔ error.details ≠ some .null) ∧
    (error.details = some .null → decode? (encode error) = some { error with details := none }) ∧
    ((∀ details, error.details = some details → details.Canonical) →
      (decode? (encode error).sortMembers : Option FormattedError) = decode? (encode error)) := by
  refine ⟨?_, fun hnull => ?_, fun hdetails => ?_⟩
  · rw [decode?_encode_eq, Option.some.injEq, ← toldDetails_eq_iff]
    constructor
    · exact congrArg FormattedError.details
    · intro h
      rw [h]
  · rw [decode?_encode_eq, toldDetails, hnull]
  · rw [decode?_sorted_eq hdetails, decode?_encode_eq]

/-- Two places, and details that hold a null and an empty object. -/
def outage : FormattedError where
  message := "upstream failed"
  locations := [⟨3, 7⟩, ⟨4, 1⟩]
  details := some (.object [("cause", .null), ("retry", .object [])])

theorem outage_read_back :
    outage.details ≠ some .null ∧ decode? (encode outage) = some outage ∧
      decode? (encode outage).sortMembers = some outage := by
  have hnull : outage.details ≠ some .null := by
    intro h
    cases h
  have hread := (reads_back_iff outage).1.mpr hnull
  have hcanonical : ∀ details, outage.details = some details → details.Canonical := by
    intro details h
    cases h
    exact ⟨by decide, trivial, ⟨.nil, trivial⟩, trivial⟩
  exact ⟨hnull, hread, ((reads_back_iff outage).2.2 hcanonical).trans hread⟩

/-- The same error with null details. -/
def hushed : FormattedError := { outage with details := some .null }

theorem null_details_lost :
    decode? (encode hushed) = some { hushed with details := none } ∧
      decode? (encode hushed) ≠ some hushed := by
  refine ⟨rfl, fun h => ?_⟩
  cases h

end FormattedError

end GraphSchema
