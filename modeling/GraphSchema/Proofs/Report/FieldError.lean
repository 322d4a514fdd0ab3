/-
  GraphSchema.Proofs.Report.FieldError — field errors read back from their JSON.

  Segments of a path carry no mark of what they are: text is a field, a number an index, and
  neither is ever read as the other. A path and extensions are written as an array and an
  object, also where they are empty, and neither is null, so that only what is missing reads as
  none. A field error therefore reads back whatever it holds, as it was written or with its
  members sorted (`decode?_encode_self`, `decode?_sorted_self`).

  A host builds a field error by calls that give it a path, an extension or a code (`Call`).
  - `build_reads_back`: what any calls build reads back; it holds the last path given and, under
    each key, the last extension given, a code being the extension under the key `code`.
  - `landing_reads_back`: a path given twice, and a code before and after an extension that is
    named as codes are.
-/

import GraphSchema.Proofs.Json.Decode
import GraphSchema.Report.FieldError
import Mathlib.Data.List.Induction

namespace GraphSchema

instance : SortedCoding PathSegment where
  decode?_sorted segment := by
    cases segment with
    | field name => rfl
    | index position => exact decode?_encode (PathSegment.index position)

namespace FieldError

/-! ## Written members -/

theorem encode_eq (error : FieldError) : encode error = .object error.members := rfl

theorem nodup_members (error : FieldError) : (error.members.map Prod.fst).Nodup := by
  rcases error with ⟨message, path, extensions⟩
  cases path <;> cases extensions <;> simp [members]

theorem lookup_message (error : FieldError) :
    error.members.lookup "message" = some (.string error.message) := rfl

theorem lookup_path (error : FieldError) :
    error.members.lookup "path" = error.path.map encode := by
  rcases error with ⟨message, path, extensions⟩
  cases path <;> cases extensions <;> rfl

theorem lookup_extensions (error : FieldError) :
    error.members.lookup "extensions" = error.extensions.map Json.ofSortedMap := by
  rcases error with ⟨message, path, extensions⟩
  cases path <;> cases extensions <;> rfl

/-! ## Reading -/

theorem decode?_object (found : List (String × Json)) :
    (decode? (.object found) : Option FieldError) =
      ((found.lookup "message").bind decode?).bind fun message =>
        (Decode.optional? (found.lookup "path")).bind fun path =>
          (Decode.optional? (found.lookup "extensions")).bind fun extensions =>
            some ⟨message, path, extensions⟩ := rfl

theorem decode?_of_lookup {found : List (String × Json)} {error : FieldError}
    (hmessage : found.lookup "message" = some (.string error.message))
    (hpath : Decode.optional? (found.lookup "path") = some error.path)
    (hextensions : Decode.optional? (found.lookup "extensions") = some error.extensions) :
    decode? (.object found) = some error := by
  rw [decode?_object, hmessage, hpath, hextensions]
  rfl

theorem decode?_ofSortedMap (extensions : SortedMap Json) :
    decode? (Json.ofSortedMap extensions) = some extensions :=
  congrArg some extensions.ofList_entries

theorem decode?_encode_self (error : FieldError) : decode? (encode error) = some error := by
  rw [encode_eq]
  refine decode?_of_lookup error.lookup_message ?_ ?_
  · rw [lookup_path]
    cases error.path with
    | none => rfl
    | some path => exact congrArg (Option.map some) (decode?_encode path)
  · rw [lookup_extensions]
    cases error.extensions with
    | none => rfl
    | some extensions => exact congrArg (Option.map some) (decode?_ofSortedMap extensions)

theorem decode?_sorted_self {error : FieldError}
    (hextensions : ∀ extensions, error.extensions = some extensions →
      (Json.ofSortedMap extensions).Canonical) :
    decode? (encode error).sortMembers = some error := by
  obtain ⟨sorted, hsorted, hlookup⟩ := Json.exists_sorted_members error.nodup_members
  rw [encode_eq, hsorted]
  refine decode?_of_lookup ?_ ?_ ?_
  · rw [hlookup, lookup_message]
    rfl
  · rw [hlookup, lookup_path]
    cases error.path with
    | none => rfl
    | some path => exact congrArg (Option.map some) (decode?_sorted path)
  · rw [hlookup, lookup_extensions]
    cases hfound : error.extensions with
    | none => rfl
    | some extensions =>
      rw [Option.map_some, Option.map_some,
        Json.sortMembers_of_canonical (hextensions extensions hfound)]
      exact congrArg (Option.map some) (decode?_ofSortedMap extensions)

/-! ## What calls build -/

/-- A call that gives a field error a part. -/
inductive Call where
  | path (segments : List PathSegment)
  | extension (key : String) (value : Json)
  | code (text : String)

namespace Call

def path? : Call → Option (List PathSegment)
  | .path segments => some segments
  | _ => none

/-- The extension that is given; a code is one. -/
def extension? : Call → Option (String × Json)
  | .path _ => none
  | .extension key value => some (key, value)
  | .code text => some ("code", .string text)

end Call

def call (error : FieldError) : Call → FieldError
  | .path segments => error.withPath segments
  | .extension key value => error.withExtension key value
  | .code text => error.withCode text

/-- The error after calls in turn. -/
def build (message : String) (calls : List Call) : FieldError :=
  calls.foldl call (ofMessage message)

/-- The extensions that calls give, with the codes. -/
def given (calls : List Call) : List (String × Json) := calls.filterMap Call.extension?

variable {message : String} {calls : List Call}

theorem build_append (message : String) (calls : List Call) (last : Call) :
    build message (calls ++ [last]) = (build message calls).call last :=
  List.foldl_append ..

theorem given_append (calls : List Call) (last : Call) :
    given (calls ++ [last]) = given calls ++ last.extension?.toList := by
  rw [given, List.filterMap_append]
  cases last <;> rfl

theorem message_build (message : String) (calls : List Call) :
    (build message calls).message = message := by
  induction calls using List.reverseRecOn with
  | nil => rfl
  | append_singleton calls last ih =>
    rw [build_append]
    cases last <;> exact ih

theorem path_build (message : String) (calls : List Call) :
    (build message calls).path = (calls.filterMap Call.path?).getLast? := by
  induction calls using List.reverseRecOn with
  | nil => rfl
  | append_singleton calls last ih =>
    rw [build_append, List.filterMap_append]
    cases last with
    | path path => exact List.getLast?_concat.symm
    | _ =>
      refine ih.trans ?_
      simp [Call.path?]

/-- A call either leaves the extensions or puts one more. -/
theorem extensions_call (error : FieldError) (last : Call) :
    (error.call last).extensions =
      match last.extension? with
      | none => error.extensions
      | some entry => some ((error.extensions.getD .empty).insert entry.1 entry.2) := by
  cases last <;> rfl

theorem extensions_build (message : String) (calls : List Call) :
    (build message calls).extensions =
      if given calls = [] then none else some (.ofList (given calls)) := by
  induction calls using List.reverseRecOn with
  | nil => rfl
  | append_singleton calls last ih =>
    rw [build_append, extensions_call, given_append]
    cases last.extension? with
    | none => simpa using ih
    | some entry =>
      have hlist : SortedMap.ofList (given calls ++ [entry]) =
          (SortedMap.ofList (given calls)).insert entry.1 entry.2 :=
        SortedMap.ext_entries (List.foldl_append ..)
      have hbefore : (build message calls).extensions.getD .empty = .ofList (given calls) := by
        rw [ih]
        split
        · rename_i hnone
          rw [hnone]
          rfl
        · rfl
      rw [hbefore, Option.toList_some, hlist, if_neg (by simp)]

theorem get?_extensions_build (message : String) (calls : List Call) (key : String) :
    (build message calls).extensions.bind (·.get? key) = (given calls).reverse.lookup key := by
  rw [extensions_build]
  split
  · rename_i hnone
    rw [hnone]
    rfl
  · exact lookup_sortOn (given calls) key

theorem canonical_extensions_build {extensions : SortedMap Json}
    (hgiven : ∀ entry ∈ given calls, entry.2.Canonical)
    (h : (build message calls).extensions = some extensions) :
    (Json.ofSortedMap extensions).Canonical := by
  rw [extensions_build] at h
  split at h
  · cases h
  · cases h
    refine Json.canonical_object_iff.mpr ⟨pairwise_sortOn _ _, fun name value hmem => ?_⟩
    exact hgiven (name, value) (mem_of_mem_sortOn hmem)

/-- What any calls build reads back, as it was written and with its members sorted. It holds
the last path given, and of the extensions given under each key the last. -/
theorem build_reads_back (message : String) (calls : List Call) :
    decode? (encode (build message calls)) = some (build message calls) ∧
    ((∀ entry ∈ given calls, entry.2.Canonical) →
      decode? (encode (build message calls)).sortMembers = some (build message calls)) ∧
    (build message calls).message = message ∧
    (build message calls).path = (calls.filterMap Call.path?).getLast? ∧
    ((build message calls).extensions = none ↔ given calls = []) ∧
    ∀ key, (build message calls).extensions.bind (·.get? key) =
      (given calls).reverse.lookup key := by
  refine ⟨decode?_encode_self _, fun hgiven => ?_, message_build .., path_build .., ?_,
    get?_extensions_build message calls⟩
  · exact decode?_sorted_self fun _ => canonical_extensions_build hgiven
  · rw [extensions_build]
    split <;> simp_all

/-- A path given twice, an empty one last, and codes around an extension under their key. -/
def landingCalls : List Call := [
  .code "E1",
  .path [.field "hero", .index 18446744073709551615],
  .extension "code" .null,
  .extension "at" (.object [("gate", .null), ("lane", .array [])]),
  .path [],
  .code "E2"]

theorem landing_reads_back :
    (∀ entry ∈ given landingCalls, entry.2.Canonical) ∧
      decode? (encode (build "boom" landingCalls)).sortMembers =
        some (build "boom" landingCalls) ∧
      (build "boom" landingCalls).path = some [] ∧
      (build "boom" landingCalls).extensions.bind (·.get? "code") = some (.string "E2") := by
  have hentries : given landingCalls = [("code", .string "E1"), ("code", .null),
      ("at", .object [("gate", .null), ("lane", .array [])]), ("code", .string "E2")] := rfl
  have hgiven : ∀ entry ∈ given landingCalls, entry.2.Canonical := by
    simp only [hentries, List.forall_mem_cons]
    exact ⟨trivial, trivial, ⟨by decide, trivial, trivial, trivial⟩, trivial, by simp⟩
  obtain ⟨_, hsorted, _, hpath, _, hextensions⟩ := build_reads_back "boom" landingCalls
  exact ⟨hgiven, hsorted hgiven, hpath, hextensions "code"⟩

end FieldError

end GraphSchema
