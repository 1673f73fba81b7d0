import LlmDRl.Replay.Trace
import LlmDRl.Search.Retrieval

/-!
# The search tool

`SearchTool` posts the queries of a tool call to the retrieval server and makes
one text of the documents that come back.  It always asks for scores, which it
does not read.
-/

namespace LlmDRl.Search

open LlmDRl.Library
open LlmDRl.Replay (Raw iterate)

/-! ## The tool -/

/-- The exceptions that leave `execute`. -/
inductive ToolError where
  | typeError
  | attributeError
  deriving DecidableEq, Repr

/-- The text of the response and the metrics. -/
structure ToolAnswer where
  text : String
  numQueries : Nat
  error : Bool := false
  deriving DecidableEq, Repr

abbrev Members := List (String × JsonValue ℚ)

def get (members : Members) (key : String) : JsonValue ℚ :=
  (members.lookup key).getD .null

/-- `value or default` -/
def orElse (value default : JsonValue ℚ) : JsonValue ℚ :=
  if (Raw.value value).truthy then value else default

def loopItems (value : JsonValue ℚ) : Except ToolError (List (JsonValue ℚ)) :=
  match iterate value with
  | .error _ => .error .typeError
  | .ok items => .ok items

/-- The queries of a call: strings that are not blank. -/
def asked (parameters : Members) : Except ToolError (List String) :=
  let queries := orElse (get parameters "query_list")
    (orElse (get parameters "query") (.array []))
  let queries :=
    match queries with
    | .text query => .array [.text query]
    | value => value
  (loopItems queries).map fun items =>
    items.filterMap fun
      | .text query =>
          if Json.strip query.toList = [] then none else some query
      | _ => none

section Text

-- Python's `str` of what is no string
variable (str : JsonValue ℚ → String)

def valueText : JsonValue ℚ → String
  | .text text => text
  | value => str value

/-- `f"{title}) {text}".strip()` -/
def titled (title text : JsonValue ℚ) : String :=
  String.ofList
    (Json.strip s!"{valueText str title}) {valueText str text}".toList)

/-- `_doc_to_text` of a document that has been unwrapped. -/
def docText : Doc → Except ToolError String
  | .object members =>
      let title := get members "title"
      match get members "text" with
      | .null =>
          match orElse (get members "contents") (.text "") with
          | .text contents =>
              let lines := partitionLine contents.toList
              let title :=
                match title with
                | .null =>
                    .text (String.ofList (stripQuotes (Json.strip lines.1)))
                | title => title
              .ok (titled str title (.text (String.ofList lines.2)))
          | _ => .error .attributeError
      | text => .ok (titled str title text)
  | value => .ok (valueText str value)

/-- `_doc_to_text` -/
def docToText : Doc → Except ToolError String
  | .object members =>
      match members.lookup "document" with
      | none => docText str (.object members)
      | some doc => docText str doc
  | value => docText str value

/-- The lines of a block, numbered from one. -/
def numbered (texts : List String) : String :=
  "\n".intercalate
    (texts.mapIdx fun i text => s!"Doc {i + 1}(Title: {text}")

/-- `_passages_to_text` -/
def passagesToText (perQuery : JsonValue ℚ) : Except ToolError String :=
  match loopItems (orElse perQuery (.array [])) with
  | .error error => .error error
  | .ok items => (items.mapM (docToText str)).map numbered

/-- The text of a response with these blocks. -/
def responseText (blocks : List String) : String :=
  let text := "\n".intercalate (blocks.filter (· ≠ ""))
  if text = "" then "No results found." else text

structure SearchTool where
  topk : Int

/-- `execute`; `post` answers a request, or raises with a text. -/
def SearchTool.execute (tool : SearchTool)
    (post : QueryRequest → Except String (JsonValue ℚ))
    (parameters : Members) : Except ToolError ToolAnswer :=
  (asked parameters).bind fun queries =>
    if queries = [] then
      .ok ⟨"No search query provided.", 0, false⟩
    else
      match post ⟨queries, some tool.topk, true⟩ with
      | .error text => .ok ⟨s!"Search error: {text}", queries.length, true⟩
      | .ok data =>
          let results :=
            match data with
            | .object members => (members.lookup "result").getD (.array [])
            | _ => .array []
          match loopItems results with
          | .error error => .error error
          | .ok items =>
              (items.mapM (passagesToText str)).map fun blocks =>
                ⟨responseText blocks, queries.length, false⟩

end Text

/-! ## The tool and the server -/

/-- The server behind HTTP: an exception comes back as an error status. -/
def serve (retriever : Retriever) (retrievalTopk : Int)
    (describe : RetrievalError → String) (request : QueryRequest) :
    Except String (JsonValue ℚ) :=
  match retrieveEndpoint retriever retrievalTopk request with
  | .error error => .error (describe error)
  | .ok answer => .ok answer

/-- What a call should answer: each query is searched by itself, and its
documents are numbered as they were ranked. -/
def ownSearches (str : JsonValue ℚ → String) (tool : SearchTool)
    (retriever : Retriever) (retrievalTopk : Int)
    (describe : RetrievalError → String) (parameters : Members) :
    Except ToolError ToolAnswer :=
  (asked parameters).bind fun queries =>
    if queries = [] then
      .ok ⟨"No search query provided.", 0, false⟩
    else
      let num := if tool.topk = 0 then retrievalTopk else tool.topk
      match queries.mapM fun query => retriever.search query num with
      | .error error =>
          .ok ⟨s!"Search error: {describe error}", queries.length, true⟩
      | .ok found =>
          (found.mapM fun own : Found =>
              (own.1.mapM (docText str)).map numbered).map fun blocks =>
            ⟨responseText blocks, queries.length, false⟩

variable (str : JsonValue ℚ → String)

theorem docToText_combined (doc : Doc) (score : ℚ) :
    docToText str (combined doc score) = docText str doc := rfl

theorem mapM_docToText_combined {docs : List Doc} {scores : List ℚ}
    (scored : docs.length ≤ scores.length) :
    (List.zipWith combined docs scores).mapM (docToText str) =
      docs.mapM (docText str) := by
  induction docs generalizing scores with
  | nil => rfl
  | cons doc rest inductionHypothesis =>
      cases scores with
      | nil => exact absurd scored (Nat.not_succ_le_zero _)
      | cons score others =>
          rw [List.zipWith_cons_cons, List.mapM_cons, List.mapM_cons,
            docToText_combined,
            inductionHypothesis (Nat.le_of_succ_le_succ scored)]

theorem passagesToText_array (items : List Doc) :
    passagesToText str (.array items) =
      (items.mapM (docToText str)).map numbered := by
  cases items with
  | nil => rfl
  | cons item rest => rfl

theorem zipWith_unzip {α β γ : Type} (f : α → β → γ) (pairs : List (α × β)) :
    List.zipWith f pairs.unzip.1 pairs.unzip.2 =
      pairs.map fun pair => f pair.1 pair.2 := by
  induction pairs with
  | nil => rfl
  | cons pair rest inductionHypothesis =>
      rw [List.unzip_cons, List.map_cons, ← inductionHypothesis]
      rfl

/-- Over the server, whatever its batch size, a call of the tool answers what
its queries find one by one. -/
theorem execute_eq_ownSearches {retriever : Retriever}
    (rowwise : retriever.Rowwise) (tool : SearchTool) (retrievalTopk : Int)
    (describe : RetrievalError → String) (parameters : Members) :
    tool.execute str (serve retriever retrievalTopk describe) parameters =
      ownSearches str tool retriever retrievalTopk describe parameters := by
  rw [SearchTool.execute, ownSearches]
  cases asked parameters with
  | error error => rfl
  | ok queries =>
      change (if queries = [] then _ else _) = if queries = [] then _ else _
      by_cases none : queries = []
      · rw [if_pos none, if_pos none]
      · rw [if_neg none, if_neg none, serve, retrieveEndpoint,
          Retriever.batchSearch_eq_mapM rowwise]
        dsimp only [QueryRequest.num]
        generalize (if tool.topk = 0 then retrievalTopk else tool.topk) = num
        cases all : queries.mapM fun query => retriever.search query num with
        | error error => rfl
        | ok found =>
            have scored : ∀ query ∈ queries, ∀ own : Found,
                retriever.search query num = .ok own →
                  own.1.length ≤ own.2.length := by
              intro query _ own searches
              exact Retriever.length_le_of_search searches
            have lengths := forall_of_mapM_ok scored all
            have each : ∀ own ∈ found,
                passagesToText str (.array
                    (List.zipWith combined own.1 own.2)) =
                  (own.1.mapM (docText str)).map numbered := by
              intro own member
              rw [passagesToText_array,
                mapM_docToText_combined str (lengths own member)]
            change ((List.zipWith
                (fun docs scores => JsonValue.array
                  (List.zipWith combined docs scores))
                found.unzip.1 found.unzip.2).mapM (passagesToText str)).map _ =
              (found.mapM fun own : Found =>
                (own.1.mapM (docText str)).map numbered).map _
            rw [zipWith_unzip, List.mapM_map, ← mapM_congr each]
            rfl

def threeQueries : Members :=
  [("query_list", .array
    [.text "who is Bob", .text " ", .text "who is Ada", .text "who is Bob"])]

/-- Three queries in batches of two. -/
theorem execute_threeQueries :
    SearchTool.execute (fun _ => "") ⟨1⟩
        (serve (.dense smallRetriever) 3 fun _ => "500") threeQueries =
      .ok
        ⟨"Doc 1(Title: Bob) B.\nDoc 1(Title: Ada) A.\nDoc 1(Title: Bob) B.", 3,
          false⟩ := by
  rw [execute_eq_ownSearches _ rowwise_smallRetriever]
  decide +kernel

end LlmDRl.Search
