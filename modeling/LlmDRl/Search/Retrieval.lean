import Mathlib.Algebra.Order.Field.Rat
import LlmDRl.Library.Batches
import LlmDRl.Library.Json
import LlmDRl.Library.Loops

/-!
# The retrieval server

`retrieval_server.py` searches a batch of queries at a time: the rows that the
index returns are flattened, the documents loaded in one list, and that list is
cut into rows again.  `/retrieve` takes the result apart as documents and
scores, also when it was asked for no scores.
-/

namespace LlmDRl.Search

open LlmDRl.Library

/-! ## The retrievers -/

inductive RetrievalError where
  /-- The index takes no number of hits below one. -/
  | refused
  | indexError
  /-- `int` of a document id, or the two targets of an assignment. -/
  | valueError
  /-- The stored document has no contents that can be split. -/
  | badContents
  deriving DecidableEq, Repr

abbrev Doc := JsonValue ℚ

/-- `corpus[idx]` -/
def loadDoc (corpus : List Doc) (idx : Int) : Except RetrievalError Doc :=
  let position := if idx < 0 then idx + corpus.length else idx
  if position < 0 then
    .error .indexError
  else
    match corpus[position.toNat]? with
    | none => .error .indexError
    | some doc => .ok doc

def loadDocs (corpus : List Doc) (docIdxs : List Int) :
    Except RetrievalError (List Doc) :=
  docIdxs.mapM (loadDoc corpus)

/-- `nearest` is the encoder and the index: a row of scores and positions in
the corpus for each query. -/
structure DenseRetriever where
  batchSize : Nat
  corpus : List Doc
  nearest : List String → Nat → List (List (ℚ × Int))

structure Hit where
  docid : String
  score : ℚ

structure BM25Retriever where
  corpus : List Doc
  containDoc : Bool
  searcher : String → Nat → List Hit
  /-- `json.loads(self.searcher.doc(hit.docid).raw())['contents']` -/
  contents : String → Option String
  intOfText : String → Option Int

/-- Up to the first end of line, and what comes after it. -/
def partitionLine (contents : List Char) : List Char × List Char :=
  (contents.takeWhile (· ≠ '\n'), (contents.dropWhile (· ≠ '\n')).tail)

/-- `strip("\"")` -/
def stripQuotes (text : List Char) : List Char :=
  ((text.dropWhile (· = '"')).reverse.dropWhile (· = '"')).reverse

/-- What the search of a query returns. -/
abbrev Found := List Doc × List ℚ

namespace DenseRetriever

/-- `_search` -/
def search (retriever : DenseRetriever) (query : String) (num : Int) :
    Except RetrievalError Found :=
  if num ≤ 0 then
    .error .refused
  else
    let row := (retriever.nearest [query] num.toNat).headD []
    (loadDocs retriever.corpus (row.map Prod.snd)).map fun docs =>
      (docs, row.map Prod.fst)

/-- The body of the loop of `_batch_search`. -/
def searchBatch (retriever : DenseRetriever) (queryBatch : List String)
    (num : Int) : Except RetrievalError (List (List Doc) × List (List ℚ)) :=
  if num ≤ 0 then
    .error .refused
  else
    let rows := retriever.nearest queryBatch num.toNat
    let flatIdxs := (rows.map fun row => row.map Prod.snd).flatten
    (loadDocs retriever.corpus flatIdxs).map fun docs =>
      (regroup num.toNat rows.length docs,
        rows.map fun row => row.map Prod.fst)

/-- `_batch_search` -/
def batchSearch (retriever : DenseRetriever) (queryList : List String)
    (num : Int) : Except RetrievalError (List (List Doc) × List (List ℚ)) :=
  ((batches retriever.batchSize queryList).mapM fun queryBatch =>
    retriever.searchBatch queryBatch num).map fun found =>
      ((found.map Prod.fst).flatten, (found.map Prod.snd).flatten)

end DenseRetriever

namespace BM25Retriever

/-- The documents of the hits, from the index or from the corpus. -/
def document (retriever : BM25Retriever) (hit : Hit) :
    Except RetrievalError Doc :=
  if retriever.containDoc then
    match retriever.contents hit.docid with
    | none => .error .badContents
    | some content =>
        let lines := partitionLine content.toList
        .ok (.object
          [("title", .text (String.ofList (stripQuotes lines.1))),
            ("text", .text (String.ofList lines.2)),
            ("contents", .text content)])
  else
    match retriever.intOfText hit.docid with
    | none => .error .valueError
    | some idx => loadDoc retriever.corpus idx

/-- `_search` -/
def search (retriever : BM25Retriever) (query : String) (num : Int) :
    Except RetrievalError Found :=
  if num ≤ 0 then
    .error .refused
  else
    let hits := retriever.searcher query num.toNat
    ((hits.take num.toNat).mapM retriever.document).map fun docs =>
      (docs, hits.map Hit.score)

/-- `_batch_search` -/
def batchSearch (retriever : BM25Retriever) (queryList : List String)
    (num : Int) : Except RetrievalError (List (List Doc) × List (List ℚ)) :=
  (queryList.mapM fun query => retriever.search query num).map List.unzip

end BM25Retriever

inductive Retriever where
  | dense (retriever : DenseRetriever)
  | bm25 (retriever : BM25Retriever)

namespace Retriever

def search : Retriever → String → Int → Except RetrievalError Found
  | .dense retriever => retriever.search
  | .bm25 retriever => retriever.search

def batchSearch : Retriever → List String → Int →
    Except RetrievalError (List (List Doc) × List (List ℚ))
  | .dense retriever => retriever.batchSearch
  | .bm25 retriever => retriever.batchSearch

/-- The index answers each query for itself, with as many hits as asked. -/
def Rowwise : Retriever → Prop
  | .dense retriever =>
      0 < retriever.batchSize ∧
        ∃ row : String → Nat → List (ℚ × Int),
          (∀ queries num, retriever.nearest queries num =
            queries.map fun query => row query num) ∧
          ∀ query num, (row query num).length = num
  | .bm25 _ => True

end Retriever

/-! ## The endpoint -/

structure QueryRequest where
  queries : List String
  topk : Option Int := none
  returnScores : Bool := false

/-- `if not request.topk` -/
def QueryRequest.num (request : QueryRequest) (retrievalTopk : Int) : Int :=
  match request.topk with
  | none => retrievalTopk
  | some topk => if topk = 0 then retrievalTopk else topk

/-- A document with its score. -/
def combined (doc : Doc) (score : ℚ) : Doc :=
  .object [("document", doc), ("score", .float score)]

/-- `retrieve_endpoint`.  Without scores the list of results is taken apart
into two, which takes two of them; the first then stands for all. -/
def retrieveEndpoint (retriever : Retriever) (retrievalTopk : Int)
    (request : QueryRequest) : Except RetrievalError (JsonValue ℚ) :=
  match retriever.batchSearch request.queries
      (request.num retrievalTopk) with
  | .error error => .error error
  | .ok (results, scores) =>
      if request.returnScores then
        .ok (.object [("result", .array
          (List.zipWith
            (fun docs scores => .array (List.zipWith combined docs scores))
            results scores))])
      else
        match results with
        | [docs, _] => .ok (.object [("result", .array docs)])
        | _ => .error .valueError

/-! ## One query at a time -/

namespace DenseRetriever

variable {retriever : DenseRetriever} {row : String → Nat → List (ℚ × Int)}

/-- A batch that is flattened and cut again is a loop over its queries. -/
theorem searchBatch_eq_mapM
    (alone : ∀ queries num, retriever.nearest queries num =
      queries.map fun query => row query num)
    (full : ∀ query num, (row query num).length = num)
    {queryBatch : List String} (nonempty : queryBatch ≠ []) (num : Int) :
    retriever.searchBatch queryBatch num =
      (queryBatch.mapM fun query => retriever.search query num).map
        List.unzip := by
  by_cases few : num ≤ 0
  · obtain ⟨query, rest, rfl⟩ := List.exists_cons_of_ne_nil nonempty
    rw [searchBatch, if_pos few, List.mapM_cons, search, if_pos few]
    rfl
  · have each : ∀ query ∈ queryBatch, retriever.search query num =
        (loadDocs retriever.corpus
          ((row query num.toNat).map Prod.snd)).map fun docs =>
            (docs, (row query num.toNat).map Prod.fst) := by
      intro query _
      rw [search, if_neg few, alone]
      rfl
    have loads : loadDocs retriever.corpus
          (queryBatch.map fun query =>
            (row query num.toNat).map Prod.snd).flatten =
        (queryBatch.mapM fun query => loadDocs retriever.corpus
          ((row query num.toNat).map Prod.snd)).map List.flatten := by
      rw [loadDocs, mapM_flatten, List.mapM_map]
      rfl
    rw [mapM_congr each, mapM_unzip, searchBatch, if_neg few, alone]
    dsimp only
    rw [List.map_map, List.map_map, List.length_map]
    change (loadDocs retriever.corpus (queryBatch.map fun query =>
      (row query num.toNat).map Prod.snd).flatten).map _ = _
    rw [loads]
    cases loaded : queryBatch.mapM fun query =>
        loadDocs retriever.corpus ((row query num.toNat).map Prod.snd) with
    | error error => rfl
    | ok docs =>
        have rowsFull : ∀ query ∈ queryBatch, ∀ found,
            loadDocs retriever.corpus ((row query num.toNat).map Prod.snd) =
              .ok found → found.length = num.toNat := by
          intro query _ found loaded
          rw [length_of_mapM_ok loaded, List.length_map, full]
        have regrouped := regroup_flatten (forall_of_mapM_ok rowsFull loaded)
        rw [length_of_mapM_ok loaded] at regrouped
        change Except.ok (regroup num.toNat queryBatch.length docs.flatten, _) =
          Except.ok (docs, _)
        rw [regrouped]
        rfl

/-- `_batch_search` finds for every query what `_search` does. -/
theorem batchSearch_eq_mapM (positive : 0 < retriever.batchSize)
    (alone : ∀ queries num, retriever.nearest queries num =
      queries.map fun query => row query num)
    (full : ∀ query num, (row query num).length = num)
    (queryList : List String) (num : Int) :
    retriever.batchSearch queryList num =
      (queryList.mapM fun query => retriever.search query num).map
        List.unzip := by
  have each : ∀ queryBatch ∈ batches retriever.batchSize queryList,
      retriever.searchBatch queryBatch num =
        (queryBatch.mapM fun query => retriever.search query num).map
          List.unzip := by
    intro queryBatch member
    exact searchBatch_eq_mapM alone full
      (ne_nil_of_mem_batches positive member) num
  rw [batchSearch, mapM_congr each, mapM_flatten_unzip,
    flatten_batches positive]

end DenseRetriever

namespace Retriever

theorem batchSearch_eq_mapM {retriever : Retriever}
    (rowwise : retriever.Rowwise) (queryList : List String) (num : Int) :
    retriever.batchSearch queryList num =
      (queryList.mapM fun query => retriever.search query num).map
        List.unzip := by
  cases retriever with
  | dense retriever =>
      obtain ⟨positive, row, alone, full⟩ := rowwise
      exact DenseRetriever.batchSearch_eq_mapM positive alone full queryList
        num
  | bm25 retriever => rfl

/-- A search has a score for each of its documents. -/
theorem length_le_of_search {retriever : Retriever} {query : String}
    {num : Int} {found : Found}
    (searches : retriever.search query num = .ok found) :
    found.1.length ≤ found.2.length := by
  cases retriever with
  | dense retriever =>
      rw [search, DenseRetriever.search] at searches
      split at searches
      · cases searches
      · dsimp only at searches
        cases loaded : loadDocs retriever.corpus
            (((retriever.nearest [query] num.toNat).headD []).map
              Prod.snd) with
        | error error =>
            rw [loaded] at searches
            cases searches
        | ok docs =>
            rw [loaded] at searches
            cases searches
            have lengths := length_of_mapM_ok loaded
            rw [List.length_map] at lengths
            dsimp only
            rw [lengths, List.length_map]
  | bm25 retriever =>
      rw [search, BM25Retriever.search] at searches
      split at searches
      · cases searches
      · dsimp only at searches
        cases loaded : ((retriever.searcher query num.toNat).take
            num.toNat).mapM retriever.document with
        | error error =>
            rw [loaded] at searches
            cases searches
        | ok docs =>
            rw [loaded] at searches
            cases searches
            dsimp only
            rw [length_of_mapM_ok loaded, List.length_map]
            exact List.length_take_le' _ _

end Retriever

/-! ## Without scores -/

/-- The endpoint on what the queries find one by one. -/
theorem retrieveEndpoint_unscored {retriever : Retriever}
    (rowwise : retriever.Rowwise) (retrievalTopk : Int)
    {request : QueryRequest} (unscored : request.returnScores = false) :
    retrieveEndpoint retriever retrievalTopk request =
      (request.queries.mapM fun query =>
        retriever.search query (request.num retrievalTopk)).bind fun found =>
          match found with
          | [first, _] => .ok (.object [("result", .array first.1)])
          | _ => .error .valueError := by
  rw [retrieveEndpoint, Retriever.batchSearch_eq_mapM rowwise, unscored]
  cases request.queries.mapM fun query =>
      retriever.search query (request.num retrievalTopk) with
  | error error => rfl
  | ok found =>
      match found with
      | [] | [_] | [_, _] | _ :: _ :: _ :: _ => rfl

/-- A request for no scores is answered if and only if it has two queries, and
then with the documents of the first one only. -/
theorem unscored_answer_iff {retriever : Retriever}
    (rowwise : retriever.Rowwise) (retrievalTopk : Int)
    {request : QueryRequest} (unscored : request.returnScores = false)
    (answer : JsonValue ℚ) :
    retrieveEndpoint retriever retrievalTopk request = .ok answer ↔
      ∃ first second found other,
        request.queries = [first, second] ∧
        retriever.search first (request.num retrievalTopk) = .ok found ∧
        retriever.search second (request.num retrievalTopk) = .ok other ∧
        answer = .object [("result", .array found.1)] := by
  rw [retrieveEndpoint_unscored rowwise retrievalTopk unscored]
  constructor
  · intro answered
    cases all : request.queries.mapM fun query =>
        retriever.search query (request.num retrievalTopk) with
    | error error =>
        rw [all] at answered
        cases answered
    | ok found =>
        rw [all] at answered
        match found with
        | [] | [_] | _ :: _ :: _ :: _ => cases answered
        | [one, other] =>
            have count := length_of_mapM_ok all
            obtain ⟨first, second, queries⟩ :=
              List.length_eq_two.mp count.symm
            rw [queries, mapM_eq_ok_iff, List.forall₂_cons,
              List.forall₂_cons] at all
            obtain ⟨searches, others, -⟩ := all
            exact ⟨first, second, one, other, queries, searches, others,
              (Except.ok.inj answered).symm⟩
  · rintro ⟨first, second, found, other, queries, searches, others, rfl⟩
    rw [queries, List.mapM_cons, List.mapM_cons, searches, others]
    rfl

def wikiDoc (contents : String) : Doc := .object [("contents", .text contents)]

/-- An index that knows one query. -/
def smallRetriever : DenseRetriever where
  batchSize := 2
  corpus := [wikiDoc "\"Ada\"\nA.", wikiDoc "\"Bob\"\nB."]
  nearest queries num :=
    queries.map fun query =>
      List.replicate num (1 / 2, if query = "who is Ada" then 0 else 1)

theorem rowwise_smallRetriever : (Retriever.dense smallRetriever).Rowwise := by
  refine ⟨Nat.zero_lt_two, _, fun _ _ => rfl, ?_⟩
  intro query num
  exact List.length_replicate

/-- Of two queries the second one is forgotten, and one alone is too few. -/
theorem unscored_answer_of_two :
    retrieveEndpoint (.dense smallRetriever) 3
        ⟨["who is Ada", "who is Bob"], some 1, false⟩ =
      .ok (.object [("result", .array [wikiDoc "\"Ada\"\nA."])]) ∧
    ∀ answer, retrieveEndpoint (.dense smallRetriever) 3
        ⟨["who is Ada"], some 1, false⟩ ≠ .ok answer := by
  constructor
  · exact (unscored_answer_iff rowwise_smallRetriever 3 rfl _).mpr
      ⟨"who is Ada", "who is Bob", ([wikiDoc "\"Ada\"\nA."], [1 / 2]),
        ([wikiDoc "\"Bob\"\nB."], [1 / 2]), rfl, rfl, rfl, rfl⟩
  · intro answer answered
    obtain ⟨first, second, -, -, queries, -⟩ :=
      (unscored_answer_iff rowwise_smallRetriever 3 rfl answer).mp answered
    cases queries

end LlmDRl.Search
