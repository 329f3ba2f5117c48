import Agora.Engine
import Agora.Proofs.Line

/-!
What a client gets back, while the engine answers every request. The lines that ask for something
are served one after the other: a line that spells no request is answered with a complaint and
leaves the engine alone, any other is handled on what the lines before it have left. What is sent
back are the responses, one to a line; a client that cuts it at the line feeds and reads each line
has the responses again.
-/

namespace Agora.Connection

open Text

/-- How lines are answered by an engine that has handled some number of requests. The clocks are
read anew for each request. -/
inductive Dialogue (settings : FeedSettings) (clocks : Nat → Reading) :
    Engine × Nat → List (List Char) → Engine × Nat → List Response → Prop
  | done {e : Engine} {n : Nat} : Dialogue settings clocks (e, n) [] (e, n) []
  | malformed {s s' : Engine × Nat} {line : List Char} {lines : List (List Char)}
    {why : Json.Refusal} {responses : List Response} (refused : Request.ofText line = .error why)
    (later : Dialogue settings clocks s lines s' responses) :
    Dialogue settings clocks s (line :: lines) s'
      (.error ("malformed request: " ++ why.message line) :: responses)
  | handled {e : Engine} {n : Nat} {s' : Engine × Nat} {line : List Char}
    {lines : List (List Char)} {r : Request} {responses : List Response}
    (asks : Request.ofText line = .ok r)
    (later : Dialogue settings clocks ((e.handle settings (clocks n) r).1, n + 1) lines s'
      responses) :
    Dialogue settings clocks (e, n) (line :: lines) s'
      ((e.handle settings (clocks n) r).2 :: responses)

/-- An engine that keeps running handles every request, and reads its clocks for each. -/
def attend (settings : FeedSettings) (clocks : Nat → Reading) (s : Engine × Nat) (r : Request) :
    Option ((Engine × Nat) × Response) :=
  let answer := s.1.handle settings (clocks s.2) r
  some ((answer.1, s.2 + 1), answer.2)

/-! ### Serving -/

section

variable {handle : σ → Request → Option (σ × Response)} {s : σ} {line : List Char}

theorem serve_blank (blank : trim line = []) (lines : List (List Char)) :
    serve handle s (line :: lines) = serve handle s lines := by
  rw [serve, read, blank]
  rfl

theorem read_solid (solid : trim line ≠ []) :
    read line = some ((Request.ofText (trim line)).mapError fun why =>
      "malformed request: " ++ why.message (trim line)) := by
  rw [read, if_neg (by simpa using solid)]
  cases Request.ofText (trim line) <;> rfl

theorem serve_malformed {why : Json.Refusal} (solid : trim line ≠ [])
    (refused : Request.ofText (trim line) = .error why) (lines : List (List Char)) :
    serve handle s (line :: lines) = ((serve handle s lines).1,
      .error ("malformed request: " ++ why.message (trim line)) :: (serve handle s lines).2) := by
  rw [serve, read_solid solid, refused]
  rfl

theorem serve_handled {r : Request} {answer : σ × Response} (solid : trim line ≠ [])
    (asks : Request.ofText (trim line) = .ok r) (answers : handle s r = some answer)
    (lines : List (List Char)) :
    serve handle s (line :: lines) =
      ((serve handle answer.1 lines).1, answer.2 :: (serve handle answer.1 lines).2) := by
  rw [serve, read_solid solid, asks]
  simp only [Except.mapError, answers]

end

section

variable {settings : FeedSettings} {clocks : Nat → Reading}

/-- Only what the clocks show from the next request on matters. -/
theorem Dialogue.congr {clocks' : Nat → Reading} {s s' : Engine × Nat}
    {lines : List (List Char)} {responses : List Response}
    (h : Dialogue settings clocks s lines s' responses)
    (same : ∀ n, s.2 ≤ n → clocks n = clocks' n) :
    Dialogue settings clocks' s lines s' responses := by
  induction h with
  | done => exact .done
  | malformed refused _ ih => exact .malformed refused (ih same)
  | @handled e n _ _ _ _ _ asks _ ih =>
    have hlater := ih fun i hi => same i ((Nat.le_succ n).trans hi)
    rw [same n le_rfl] at hlater ⊢
    exact .handled asks hlater

/-- The lines that are not blank are answered, and the others are passed over. -/
theorem dialogue_serve (s : Engine × Nat) (lines : List (List Char)) :
    Dialogue settings clocks s ((lines.map trim).filter (· ≠ []))
      (serve (attend settings clocks) s lines).1 (serve (attend settings clocks) s lines).2 := by
  induction lines generalizing s with
  | nil => exact .done
  | cons line lines ih =>
    rw [List.map_cons]
    by_cases hblank : trim line = []
    · rw [List.filter_cons_of_neg (by simpa using hblank), serve_blank hblank]
      exact ih s
    · rw [List.filter_cons_of_pos (by simpa using hblank)]
      cases h : Request.ofText (trim line) with
      | error why =>
        rw [serve_malformed hblank h]
        exact .malformed h (ih s)
      | ok r =>
        rw [serve_handled hblank h rfl]
        exact .handled h (ih _)

end

theorem toList_write (r : Response) : (write r).toList = r.toJson.write := String.toList_ofList

/-- No response has a line feed in it, whatever texts it carries. -/
theorem lineFeed_not_mem_write (r : Response) : lineFeed ∉ encode (write r) := by
  refine lineFeed_not_mem_encode ?_
  rw [toList_write]
  exact Json.printed_write r.plain_toJson

/-- What a client makes of a line that it gets back. -/
def readBack (line : List UInt8) : Option Response :=
  (decode? line).bind fun cs => (Response.ofText cs).toOption

theorem readBack_write (r : Response) : readBack (encode (write r)) = some r := by
  rw [readBack, decode?_encode, toList_write, Option.bind_some, Response.ofText_toJson]
  rfl

/-- Whatever bytes come in, each line of them that asks for something, up to the first line that is
not UTF-8, is answered in its turn. What is sent back is one line for each response and nothing
else; cut at the line feeds and read, it is the responses. -/
theorem answers_line_for_line (settings : FeedSettings) (clocks : Nat → Reading) (e : Engine)
    (bytes : List UInt8) :
    ∃ (lines : List (List UInt8)) (asked : List (List Char)) (responses : List Response),
      Lines bytes lines ∧ Asks lines asked ∧
      Dialogue settings clocks (e, 0) asked
        (exchange (attend settings clocks) (e, 0) bytes).1 responses ∧
      (exchange (attend settings clocks) (e, 0) bytes).2 =
        responses.flatMap (fun r => encode (write r) ++ [lineFeed]) ∧
      (∀ r : Response, lineFeed ∉ encode (write r)) ∧
      (pieces lineFeed (exchange (attend settings clocks) (e, 0) bytes).2).getLast? = some [] ∧
      (pieces lineFeed (exchange (attend settings clocks) (e, 0) bytes).2).dropLast.map readBack =
        responses.map some := by
  have hserve : Dialogue settings clocks (e, 0) (asked bytes) _ _ :=
    asked_eq bytes ▸ dialogue_serve (e, 0) (texts (linesOf bytes))
  refine ⟨rawLines bytes, asked bytes, _, lines_rawLines bytes, asks_texts _, hserve, ?_,
    lineFeed_not_mem_write, ?_⟩
  · rw [exchange, frame, run, List.flatMap_map]
  · generalize hresponses : (serve (attend settings clocks) (e, 0) (texts (linesOf bytes))).2 =
      responses
    have hsent : (exchange (attend settings clocks) (e, 0) bytes).2 =
        frame (responses.map write) := by
      rw [← hresponses]
      rfl
    have hframed : ∀ line ∈ responses.map write, lineFeed ∉ encode line := by
      intro line hline
      obtain ⟨r, -, rfl⟩ := List.mem_map.1 hline
      exact lineFeed_not_mem_write r
    rw [hsent, pieces_frame hframed]
    refine ⟨List.getLast?_concat, ?_⟩
    rw [List.dropLast_concat, List.map_map, List.map_map]
    exact List.map_congr_left fun r _ => readBack_write r

-- a ping that ends in a carriage return, a blank line, a line that is no request, and a byte that
-- no text has, with a ping behind it that nobody answers
example :
    (exchange (attend {} fun _ => ⟨.epoch, 0⟩) (.empty, 0)
      (encode "\x7b\"type\":\"ping\"\x7d\r\n \t\nping\n" ++ 0xFF :: lineFeed ::
        encode "\x7b\"type\":\"ping\"\x7d\n")).2 =
      encode ("\x7b\"type\":\"pong\"\x7d\n" ++ "\x7b\"type\":\"error\",\"message\":" ++
        "\"malformed request: expected value at line 1 column 1\"\x7d\n") := by
  decide +kernel

end Agora.Connection
