import ServiceDiscovery.Proofs.Frame.Lines
import ServiceDiscovery.Proofs.Message
/-!
# Sent requests are lines

A request is written on one line whatever its strings hold, so the line feeds of a stream are those
behind the requests and nothing else. Cutting the stream at them gives the requests back.
-/

namespace ServiceDiscovery

namespace Frame

/-- The request that a line holds. -/
def requestOf? (line : List UInt8) : Option Request :=
  (text? line).bind fun s => (Request.shape.parse s).toOption

theorem requestOf?_bytesOf (q : Request) : requestOf? (bytesOf (Request.shape.text q)) = some q := by
  rw [requestOf?, text?_eq_some_iff.mpr rfl, Option.bind_some, q.parse_text]
  rfl

theorem visible_request (q : Request) : Json.Visible (Request.shape.text q).toList := by
  rw [Json.Shape.text, String.toList_ofList]
  exact Request.shape.visible_write (Request.shape_fits 0 q)

theorem splitOn_requests (qs : List Request) :
    (qs.flatMap encode).splitOn lineFeed =
      (qs.map fun q => bytesOf (Request.shape.text q)) ++ [[]] := by
  induction qs with
  | nil => rfl
  | cons q qs ih =>
      have hline : lineFeed ∉ bytesOf (Request.shape.text q) :=
        not_mem_bytesOf (visible_request q) (by decide)
      have hstream : (q :: qs).flatMap encode =
          bytesOf (Request.shape.text q) ++ lineFeed :: qs.flatMap encode := by
        rw [List.flatMap_cons, encode, List.append_assoc, List.singleton_append, bytesOf]
      rw [hstream, List.splitOn_append_cons_self_of_not_mem hline, ih, List.map_cons,
        List.cons_append]

theorem requests_of_stream (qs : List Request) :
    ((qs.flatMap encode).splitOn lineFeed).dropLast.mapM requestOf? = some qs := by
  rw [splitOn_requests, List.dropLast_concat, List.mapM_map]
  induction qs with
  | nil => rfl
  | cons q qs ih =>
      rw [List.mapM_cons, Function.comp_apply, requestOf?_bytesOf, ih]
      rfl

/-- **Sent requests are lines.** What is sent for any requests is their texts, each with a line feed
behind it. None of these texts holds a line feed or a carriage return, so that cutting at the line
feeds gives the texts and reading these gives the requests. No other requests are sent as the same
bytes. -/
theorem sent_requests_are_lines :
    (∀ qs : List Request,
      let texts := qs.map Request.shape.text
      qs.flatMap encode = texts.flatMap (bytesOf · ++ [lineFeed]) ∧
      (∀ s ∈ texts, lineFeed ∉ bytesOf s ∧ carriageReturn ∉ bytesOf s) ∧
      (qs.flatMap encode).splitOn lineFeed = texts.map bytesOf ++ [[]] ∧
      ((qs.flatMap encode).splitOn lineFeed).dropLast.mapM requestOf? = some qs) ∧
    Function.Injective fun qs : List Request => qs.flatMap encode := by
  refine ⟨fun qs => ⟨?_, ?_, ?_, requests_of_stream qs⟩, fun qs others h => ?_⟩
  · rw [List.flatMap_map]
    rfl
  · intro s hs
    obtain ⟨q, _, rfl⟩ := List.mem_map.mp hs
    exact ⟨not_mem_bytesOf (visible_request q) (by decide),
      not_mem_bytesOf (visible_request q) (by decide)⟩
  · rw [splitOn_requests, List.map_map]
    rfl
  · have hsame : some qs = some others := by
      rw [← requests_of_stream qs, ← requests_of_stream others]
      exact congrArg (fun bytes => (bytes.splitOn lineFeed).dropLast.mapM requestOf?) h
    exact Option.some.inj hsame

end Frame

end ServiceDiscovery
