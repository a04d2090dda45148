import BatchRun.Cluster.Api
import BatchRun.Proofs.Run.Alike
import BatchRun.Proofs.Run.Calls
import BatchRun.Proofs.Text.Blank
import BatchRun.Proofs.Text.Encoding

/-!
# Forwarding a log

The lines of a log are cut out of bytes that arrive in chunks, and each of them is forwarded without
its trailing blanks, until the log ends, breaks off or comes to a line that is no text.

* `Chunks.Cut`: bytes cut at their line feeds, `Chunks.exists_cut`; **`Body.lines_of_cut`**: the
  lines of a body are those of its bytes, however these arrive; `Body.total_lines`: and they take as
  long;
* `Body.Delivers`: the texts of the lines that a log delivers, and what comes of it, as its bytes
  say;
* `forwardBody_of_delivers`, `Body.exists_delivers`: that is what is forwarded, and it exists;
* **`Server.followLogs_delivers`**: the lines that a client of a server writes.
-/

namespace BatchRun

/-! ## Cutting bytes at line feeds -/

namespace Timed

variable {α : Type}

theorem map_value_together (wait : Nat) (xs : List α) : (together wait xs).map value = xs := by
  cases xs <;> simp [together, Function.comp_def]

theorem total_cons (x : Timed α) (xs : List (Timed α)) : total (x :: xs) = x.wait + total xs := rfl

theorem total_append (xs ys : List (Timed α)) : total (xs ++ ys) = total xs + total ys := by
  induction xs with
  | nil => exact (Nat.zero_add _).symm
  | cons x xs ih => rw [List.cons_append, total_cons, total_cons, ih, Nat.add_assoc]

theorem total_together (n : Nat) (xs : List α) :
    total (together n xs) = if xs = [] then 0 else n := by
  have hzero (ys : List α) : total (ys.map fun (y : α) => (⟨0, y⟩ : Timed α)) = 0 := by
    induction ys with
    | nil => rfl
    | cons y ys ih => rw [List.map_cons, total_cons, ih]
  cases xs with
  | nil => rfl
  | cons x xs => rw [together, total_cons, hzero, if_neg (List.cons_ne_nil _ _), Nat.add_zero]

end Timed

namespace Chunks

/-- The bytes of lines, each with its line feed. -/
def ended (lines : List (List UInt8)) : List UInt8 :=
  (lines.map fun (line : List UInt8) => line ++ [lineFeed]).flatten

@[simp] theorem ended_nil : ended [] = [] := rfl

@[simp] theorem ended_cons (line : List UInt8) (lines : List (List UInt8)) :
    ended (line :: lines) = line ++ lineFeed :: ended lines := by
  simp [ended]

theorem ended_append (lines more : List (List UInt8)) :
    ended (lines ++ more) = ended lines ++ ended more := by
  simp [ended]

/-- Bytes are cut at their line feeds: into lines that had one, and a rest that had none. -/
structure Cut (bs : List UInt8) (lines : List (List UInt8)) (rest : List UInt8) : Prop where
  bytes : bs = ended lines ++ rest
  lines : ∀ line ∈ lines, lineFeed ∉ line
  rest : lineFeed ∉ rest

theorem exists_cut (bs : List UInt8) : ∃ lines rest, Cut bs lines rest := by
  induction bs with
  | nil => exact ⟨[], [], rfl, List.forall_mem_nil _, List.not_mem_nil⟩
  | cons b bs ih =>
    obtain ⟨lines, rest, rfl, hlines, hrest⟩ := ih
    by_cases hb : b = lineFeed
    · subst hb
      exact ⟨[] :: lines, rest, by simp, List.forall_mem_cons.2 ⟨List.not_mem_nil, hlines⟩, hrest⟩
    · cases lines with
      | nil => exact ⟨[], b :: rest, rfl, List.forall_mem_nil _, by simp [Ne.symm hb, hrest]⟩
      | cons line lines =>
        obtain ⟨hline, hlines⟩ := List.forall_mem_cons.1 hlines
        refine ⟨(b :: line) :: lines, rest, by simp, ?_, hrest⟩
        exact List.forall_mem_cons.2 ⟨by simp [Ne.symm hb, hline], hlines⟩

theorem takeIn_append (held bs more : List UInt8) : takeIn held (bs ++ more) =
    ((takeIn held bs).1 ++ (takeIn (takeIn held bs).2 more).1,
      (takeIn (takeIn held bs).2 more).2) := by
  induction bs generalizing held with
  | nil => rfl
  | cons b bs ih =>
    rw [List.cons_append, takeIn, takeIn]
    split
    · rw [ih]
      rfl
    · exact ih (b :: held)

/-- **It does not matter where the bytes are cut into chunks, nor when these arrive.** -/
theorem takeInAll_eq (waited : Nat) (held : List UInt8) (chunks : List (Timed (List UInt8))) :
    ((takeInAll waited held chunks).1.map Timed.value, (takeInAll waited held chunks).2.value) =
      takeIn held (chunks.map Timed.value).flatten := by
  induction chunks generalizing waited held with
  | nil => rfl
  | cons chunk rest ih =>
    rw [takeInAll, List.map_cons, List.flatten_cons, takeIn_append]
    dsimp only
    rw [← ih, List.map_append, Timed.map_value_together]

theorem total_takeInAll (waited : Nat) (held : List UInt8) (chunks : List (Timed (List UInt8))) :
    Timed.total (takeInAll waited held chunks).1 + (takeInAll waited held chunks).2.wait =
      waited + Timed.total chunks := by
  induction chunks generalizing waited held with
  | nil => exact Nat.add_comm 0 waited
  | cons chunk rest ih =>
    rw [takeInAll]
    dsimp only
    rw [Timed.total_append, Nat.add_assoc, ih, Timed.total_together, Timed.total_cons]
    split <;> omega

theorem takeIn_of_not_mem {held bs : List UInt8} (h : lineFeed ∉ bs) :
    takeIn held bs = ([], bs.reverse ++ held) := by
  induction bs generalizing held with
  | nil => rfl
  | cons b bs ih =>
    rw [List.mem_cons, not_or] at h
    rw [takeIn, if_neg (Ne.symm h.1), ih h.2, List.reverse_cons, List.append_assoc]
    rfl

theorem takeIn_of_cut {bs rest : List UInt8} {lines : List (List UInt8)} (h : Cut bs lines rest) :
    takeIn [] bs = (lines.map fun (line : List UInt8) => line ++ [lineFeed], rest.reverse) := by
  obtain ⟨rfl, hlines, hrest⟩ := h
  induction lines with
  | nil => rw [ended_nil, List.nil_append, takeIn_of_not_mem hrest, List.append_nil, List.map_nil]
  | cons line lines ih =>
    obtain ⟨hline, hlines⟩ := List.forall_mem_cons.1 hlines
    rw [ended_cons, List.append_assoc, takeIn_append, takeIn_of_not_mem hline, List.cons_append,
      takeIn, if_pos rfl]
    dsimp only
    rw [ih hlines]
    simp

end Chunks

/-- **The lines of a body are those of its bytes, in whatever chunks these arrive.** -/
theorem Body.lines_of_cut {b : Body} {lines : List (List UInt8)} {rest : List UInt8}
    (h : Chunks.Cut b.bytes lines rest) :
    (b.lines.1.map Timed.value = lines.map fun (line : List UInt8) => line ++ [lineFeed]) ∧
      b.lines.2.value = rest := by
  have htaken := Chunks.takeInAll_eq 0 [] b.chunks.toList
  rw [show (b.chunks.toList.map Timed.value).flatten = b.bytes from rfl, Chunks.takeIn_of_cut h,
    Prod.mk.injEq] at htaken
  refine ⟨htaken.1, ?_⟩
  rw [Body.lines]
  dsimp only
  rw [htaken.2, List.reverse_reverse]

/-- **The lines of a body come in as long a time as its bytes.** -/
theorem Body.total_lines (b : Body) : Timed.total b.lines.1 + b.lines.2.wait = b.duration :=
  (Chunks.total_takeInAll 0 [] b.chunks.toList).trans (Nat.zero_add _)

/-! ## What a log delivers -/

/-- The line after the last line feed, unless there is nothing after it. -/
def unended (last : String) : List String := if last = "" then [] else [last]

/-- The texts that a log delivers as lines, and what comes of it, unless it goes on for ever. Only
the bytes count, and how they end. -/
inductive Body.Delivers (b : Body) : List String → Option (Except Fault Nat) → Prop
  | clean {texts : List String} {last : String} (hending : b.ending = .complete)
      (hbytes : b.bytes = Chunks.ended (texts.map Text.bytes) ++ Text.bytes last)
      (hlines : ∀ text ∈ texts, '\n' ∉ text.toList) (hlast : '\n' ∉ last.toList) :
      Delivers b (texts ++ unended last) (some (.ok (texts ++ unended last).length))
  | broken {texts : List String} {rest : List UInt8} {reason : String}
      (hending : b.ending = .broken reason)
      (hbytes : b.bytes = Chunks.ended (texts.map Text.bytes) ++ rest)
      (hlines : ∀ text ∈ texts, '\n' ∉ text.toList) (hrest : lineFeed ∉ rest) :
      Delivers b texts
        (some (.error (.operation "log_stream" (ExchangeError.service reason).message)))
  /-- A line that is ended is no text. -/
  | garbled {texts : List String} {line more : List UInt8}
      (hbytes : b.bytes = Chunks.ended (texts.map Text.bytes) ++ (line ++ lineFeed :: more))
      (hlines : ∀ text ∈ texts, '\n' ∉ text.toList) (hline : lineFeed ∉ line)
      (hnone : ∀ text, line ≠ Text.bytes text) :
      Delivers b texts (some (.error (.operation "log_stream" Text.notText)))
  /-- What comes after the last line feed is no text. -/
  | garbledEnd {texts : List String} {rest : List UInt8} (hending : b.ending = .complete)
      (hbytes : b.bytes = Chunks.ended (texts.map Text.bytes) ++ rest)
      (hlines : ∀ text ∈ texts, '\n' ∉ text.toList) (hrest : lineFeed ∉ rest)
      (hnone : ∀ text, rest ≠ Text.bytes text) :
      Delivers b texts (some (.error (.operation "log_stream" Text.notText)))
  | endless {texts : List String} {rest : List UInt8} (hending : b.ending = .endless)
      (hbytes : b.bytes = Chunks.ended (texts.map Text.bytes) ++ rest)
      (hlines : ∀ text ∈ texts, '\n' ∉ text.toList) (hrest : lineFeed ∉ rest) :
      Delivers b texts none

/-! ## Reading lines -/

theorem readLine_bytes (text : String) : readLine (Text.bytes text) = some (chomp text) := by
  rw [readLine, Text.ofBytes?_bytes]
  rfl

theorem readLine_ended (text : String) :
    readLine (Text.bytes text ++ [lineFeed]) = some (chomp (text ++ "\n")) := by
  rw [readLine, show lineFeed = 10 from rfl, Text.ofBytes?_append_lineFeed, Text.ofBytes?_bytes]
  rfl

theorem readLine_eq_none {line : List UInt8} (h : ∀ text, line ≠ Text.bytes text) :
    readLine line = none := by
  rw [readLine, Text.ofBytes?_eq_none_iff.2 h]
  rfl

theorem readLine_ended_eq_none {line : List UInt8} (h : ∀ text, line ≠ Text.bytes text) :
    readLine (line ++ [lineFeed]) = none := by
  rw [readLine, show lineFeed = 10 from rfl, Text.ofBytes?_append_lineFeed,
    Text.ofBytes?_eq_none_iff.2 h]
  rfl

theorem chomp_of_not_mem {text : String} (h : '\n' ∉ text.toList) : chomp text = text := by
  unfold chomp
  split
  · rename_i heq
    exact absurd (List.mem_reverse.1 (heq ▸ List.mem_cons_self)) h
  · rename_i heq
    exact absurd (List.mem_reverse.1 (heq ▸ List.mem_cons_self)) h
  · rfl

theorem outputLine_chomp (text : String) :
    outputLine (chomp (text ++ "\n")) = Text.trimEnd text := by
  have hreverse : (text ++ "\n").toList.reverse = '\n' :: text.toList.reverse := by
    rw [String.toList_append, List.reverse_append]
    rfl
  rw [outputLine, chomp, hreverse]
  cases hrest : text.toList.reverse with
  | nil =>
    have hempty : text.toList = [] := List.reverse_eq_nil_iff.1 hrest
    rw [Text.trimEnd, Text.trimEnd, hempty]
    rfl
  | cons c rest =>
    have htext : text.toList = rest.reverse ++ [c] := by
      rw [← List.reverse_reverse text.toList, hrest, List.reverse_cons]
    by_cases hc : c = '\r'
    · subst hc
      show Text.trimEnd (String.ofList rest.reverse) = _
      rw [Text.trimEnd, Text.trimEnd, String.toList_ofList, htext,
        Text.trimEndChars_append _ (List.forall_mem_singleton.2 rfl)]
    · split
      · rename_i heq
        cases heq
        exact absurd rfl hc
      · rename_i heq
        cases heq
        rw [List.reverse_cons, ← htext, String.ofList_toList]
      · rename_i hno
        exact absurd rfl (hno _)

/-! ## What is forwarded -/

namespace Server

/-- What is forwarded of lines and what comes of the log, whenever the lines come in. -/
def forwardTexts (ending : BodyEnd) (count : Nat) :
    List (List UInt8) → List String × Option (Except Fault Nat)
  | [] => ([], logResult count ending)
  | line :: rest =>
    match readLine line with
    | none => ([], some (.error (logBroken Text.notText)))
    | some text =>
      let (texts, result) := forwardTexts ending (count + 1) rest
      (text :: texts, result)

/-- What a log forwards and comes to, without the times. -/
def LogEnd.untimed (log : LogEnd) : List String × Option (Except Fault Nat) :=
  (log.lines.map Timed.value, log.result)

theorem untimed_forwardLines (ending : BodyEnd) (left count : Nat)
    (lines : List (Timed (List UInt8))) : (forwardLines ending left count lines).untimed =
      forwardTexts ending count (lines.map Timed.value) := by
  induction lines generalizing count with
  | nil => rfl
  | cons line lines ih =>
    rw [forwardLines, List.map_cons, forwardTexts, ← ih]
    cases readLine line.value <;> rfl

end Server

theorem forwardTexts_ended (ending : BodyEnd) (count : Nat) (texts : List String)
    (more : List (List UInt8)) :
    Server.forwardTexts ending count
        (texts.map (fun (text : String) => Text.bytes text ++ [lineFeed]) ++ more) =
      (texts.map (fun (text : String) => chomp (text ++ "\n")) ++
          (Server.forwardTexts ending (count + texts.length) more).1,
        (Server.forwardTexts ending (count + texts.length) more).2) := by
  induction texts generalizing count with
  | nil => rfl
  | cons text texts ih =>
    rw [List.map_cons, List.cons_append, Server.forwardTexts, readLine_ended]
    dsimp only
    rw [ih, List.length_cons, Nat.add_assoc, Nat.add_comm 1]
    rfl

theorem bytes_eq_nil_iff {text : String} : Text.bytes text = [] ↔ text = "" := by
  rw [← Text.bytes_inj]
  rfl

/-- What comes after the last line feed is a line of its own only at the end of a complete body. -/
theorem logLines_of_cut {b : Body} {lines : List (List UInt8)} {rest : List UInt8}
    (h : Chunks.Cut b.bytes lines rest) :
    (Server.logLines b).1.map Timed.value =
      (lines.map fun (line : List UInt8) => line ++ [lineFeed]) ++
        if b.ending = .complete ∧ rest ≠ [] then [rest] else [] := by
  obtain ⟨hlines, hrest⟩ := Body.lines_of_cut h
  rw [Server.logLines, ← hlines, ← hrest]
  cases b.ending with
  | complete => by_cases hnil : b.lines.2.value = [] <;> simp [hnil]
  | broken reason => simp
  | endless => simp

/-- The lines up to some point are forwarded if they are texts, and the others go on from there. -/
theorem forwardBody_of_cut {b : Body} {texts : List String} {lines : List (List UInt8)}
    {rest : List UInt8} (h : Chunks.Cut b.bytes (texts.map Text.bytes ++ lines) rest) :
    (Server.forwardBody b).untimed =
      let others := Server.forwardTexts b.ending texts.length
        ((lines.map fun (line : List UInt8) => line ++ [lineFeed]) ++
          if b.ending = .complete ∧ rest ≠ [] then [rest] else [])
      (texts.map (fun (text : String) => chomp (text ++ "\n")) ++ others.1, others.2) := by
  rw [Server.forwardBody]
  dsimp only
  rw [Server.untimed_forwardLines, logLines_of_cut h, List.map_append, List.map_map,
    List.append_assoc]
  refine (forwardTexts_ended _ _ _ _).trans ?_
  rw [Nat.zero_add]

theorem forwardBody_of_texts {b : Body} {texts : List String} {rest : List UInt8}
    (hbytes : b.bytes = Chunks.ended (texts.map Text.bytes) ++ rest)
    (hlines : ∀ text ∈ texts, '\n' ∉ text.toList) (hrest : lineFeed ∉ rest) :
    (Server.forwardBody b).untimed =
      let others := Server.forwardTexts b.ending texts.length
        (if b.ending = .complete ∧ rest ≠ [] then [rest] else [])
      (texts.map (fun (text : String) => chomp (text ++ "\n")) ++ others.1, others.2) := by
  have hcut : Chunks.Cut b.bytes (texts.map Text.bytes ++ []) rest := by
    rw [List.append_nil]
    exact ⟨hbytes, List.forall_mem_map.2 fun text htext hmem =>
      hlines text htext (Text.mem_bytes_iff.1 hmem), hrest⟩
  exact forwardBody_of_cut hcut

theorem map_outputLine_chomp (texts : List String) :
    (texts.map fun (text : String) => chomp (text ++ "\n")).map outputLine =
      texts.map Text.trimEnd := by
  rw [List.map_map]
  exact List.map_congr_left fun text _ => outputLine_chomp text

/-- **What a log delivers is what is forwarded, up to the blanks at the ends of the lines.** One
case for each way in which a log may end. -/
theorem forwardBody_of_delivers {b : Body} {texts : List String}
    {result : Option (Except Fault Nat)} (h : b.Delivers texts result) :
    ∃ raws, (Server.forwardBody b).untimed = (raws, result) ∧
      raws.map outputLine = texts.map Text.trimEnd := by
  cases h with
  | @clean texts last hending hbytes hlines hlast =>
    rw [forwardBody_of_texts hbytes hlines fun hmem => hlast (Text.mem_bytes_iff.1 hmem), hending]
    by_cases hempty : last = ""
    · refine ⟨texts.map fun (text : String) => chomp (text ++ "\n"), ?_, ?_⟩
      · simp [Server.forwardTexts, Server.logResult, unended, hempty, bytes_eq_nil_iff]
      · rw [map_outputLine_chomp, unended, if_pos hempty, List.append_nil]
    · refine ⟨(texts.map fun (text : String) => chomp (text ++ "\n")) ++ [last], ?_, ?_⟩
      · simp [Server.forwardTexts, Server.logResult, unended, hempty, bytes_eq_nil_iff,
          readLine_bytes, chomp_of_not_mem hlast]
      · rw [List.map_append, map_outputLine_chomp, unended, if_neg hempty, List.map_append]
        rfl
  | @broken _ rest reason hending hbytes hlines hrest =>
    refine ⟨_, ?_, map_outputLine_chomp texts⟩
    rw [forwardBody_of_texts hbytes hlines hrest, hending]
    simp [Server.forwardTexts, Server.logResult, Server.logBroken]
  | @garbled _ line more hbytes hlines hline hnone =>
    obtain ⟨others, rest, hothers⟩ := Chunks.exists_cut more
    have hcut : Chunks.Cut b.bytes (texts.map Text.bytes ++ line :: others) rest := by
      refine ⟨?_, List.forall_mem_append.2 ⟨?_, List.forall_mem_cons.2 ⟨hline, hothers.lines⟩⟩,
        hothers.rest⟩
      · rw [hbytes, hothers.bytes, Chunks.ended_append, Chunks.ended_cons]
        simp
      · exact List.forall_mem_map.2 fun text htext hmem => hlines text htext
          (Text.mem_bytes_iff.1 hmem)
    refine ⟨_, ?_, map_outputLine_chomp texts⟩
    rw [forwardBody_of_cut hcut]
    simp [Server.forwardTexts, Server.logBroken, readLine_ended_eq_none hnone]
  | @garbledEnd _ rest hending hbytes hlines hrest hnone =>
    have hne : rest ≠ [] := hnone ""
    refine ⟨_, ?_, map_outputLine_chomp texts⟩
    rw [forwardBody_of_texts hbytes hlines hrest, hending]
    simp [Server.forwardTexts, Server.logBroken, readLine_eq_none hnone, hne]
  | @endless _ rest hending hbytes hlines hrest =>
    refine ⟨_, ?_, map_outputLine_chomp texts⟩
    rw [forwardBody_of_texts hbytes hlines hrest, hending]
    simp [Server.forwardTexts, Server.logResult]

/-! ## Every log delivers something -/

theorem exists_texts (lines : List (List UInt8)) :
    (∃ texts : List String, lines = texts.map Text.bytes) ∨
      ∃ (texts : List String) (line : List UInt8) (more : List (List UInt8)),
        lines = texts.map Text.bytes ++ line :: more ∧ ∀ text, line ≠ Text.bytes text := by
  induction lines with
  | nil => exact .inl ⟨[], rfl⟩
  | cons line lines ih =>
    by_cases hline : ∃ text, line = Text.bytes text
    · obtain ⟨text, rfl⟩ := hline
      rcases ih with ⟨texts, rfl⟩ | ⟨texts, other, more, rfl, hother⟩
      · exact .inl ⟨text :: texts, rfl⟩
      · exact .inr ⟨text :: texts, other, more, rfl, hother⟩
    · exact .inr ⟨[], line, lines, rfl, fun text h => hline ⟨text, h⟩⟩

theorem Body.exists_delivers (b : Body) : ∃ texts result, b.Delivers texts result := by
  obtain ⟨lines, rest, hbytes, hlines, hrest⟩ := Chunks.exists_cut b.bytes
  have hnoBreak {texts : List String} (h : ∀ line ∈ texts.map Text.bytes, lineFeed ∉ line) :
      ∀ text ∈ texts, '\n' ∉ text.toList :=
    fun text htext hmem => h _ (List.mem_map_of_mem htext) (Text.mem_bytes_iff.2 hmem)
  rcases exists_texts lines with ⟨texts, rfl⟩ | ⟨texts, line, more, rfl, hnone⟩
  · cases hending : b.ending with
    | complete =>
      by_cases hlast : ∃ last, rest = Text.bytes last
      · obtain ⟨last, rfl⟩ := hlast
        exact ⟨_, _, .clean hending hbytes (hnoBreak hlines)
          fun hmem => hrest (Text.mem_bytes_iff.2 hmem)⟩
      · exact ⟨_, _, .garbledEnd hending hbytes (hnoBreak hlines) hrest
          fun text h => hlast ⟨text, h⟩⟩
    | broken reason => exact ⟨_, _, .broken hending hbytes (hnoBreak hlines) hrest⟩
    | endless => exact ⟨_, _, .endless hending hbytes (hnoBreak hlines) hrest⟩
  · obtain ⟨htexts, hmore⟩ := List.forall_mem_append.1 hlines
    have hsplit : b.bytes = Chunks.ended (texts.map Text.bytes) ++
        (line ++ lineFeed :: (Chunks.ended more ++ rest)) := by
      rw [hbytes, Chunks.ended_append, Chunks.ended_cons]
      simp
    exact ⟨_, _, .garbled hsplit (hnoBreak htexts) (hmore line List.mem_cons_self) hnone⟩

/-! ## Logs that end cleanly -/

theorem exists_ended_eq_bytes (texts : List String) :
    ∃ text, Chunks.ended (texts.map Text.bytes) = Text.bytes text := by
  induction texts with
  | nil => exact ⟨"", rfl⟩
  | cons text texts ih =>
    obtain ⟨others, hothers⟩ := ih
    refine ⟨text ++ "\n" ++ others, ?_⟩
    rw [List.map_cons, Chunks.ended_cons, hothers, Text.bytes_append, Text.bytes_append]
    exact (List.append_assoc _ [lineFeed] _).symm

theorem exists_ended_of_text (text : String) : ∃ (texts : List String) (last : String),
    Text.bytes text = Chunks.ended (texts.map Text.bytes) ++ Text.bytes last ∧
      (∀ line ∈ texts, '\n' ∉ line.toList) ∧ '\n' ∉ last.toList := by
  rw [← String.ofList_toList (s := text)]
  induction text.toList with
  | nil => exact ⟨[], "", rfl, List.forall_mem_nil _, by simp⟩
  | cons c cs ih =>
    obtain ⟨texts, last, hbytes, hlines, hlast⟩ := ih
    have hcons (s : String) : String.utf8EncodeChar c ++ Text.bytes s =
        Text.bytes (String.ofList (c :: s.toList)) := by
      rw [Text.bytes_ofList, List.flatMap_cons, ← Text.bytes_eq_flatMap]
    have hfirst : Text.bytes (String.ofList (c :: cs)) =
        String.utf8EncodeChar c ++ Text.bytes (String.ofList cs) := by
      rw [hcons, String.toList_ofList]
    rw [hfirst, hbytes]
    by_cases hc : c = '\n'
    · subst hc
      exact ⟨"" :: texts, last, rfl, List.forall_mem_cons.2 ⟨by simp, hlines⟩, hlast⟩
    · cases texts with
      | nil =>
        refine ⟨[], String.ofList (c :: last.toList), (hcons last), List.forall_mem_nil _, ?_⟩
        simp [Ne.symm hc, hlast]
      | cons line texts =>
        obtain ⟨hline, hlines⟩ := List.forall_mem_cons.1 hlines
        refine ⟨String.ofList (c :: line.toList) :: texts, last, ?_,
          List.forall_mem_cons.2 ⟨by simp [Ne.symm hc, hline], hlines⟩, hlast⟩
        rw [List.map_cons, List.map_cons, Chunks.ended_cons, Chunks.ended_cons, ← hcons]
        simp

namespace Body.Delivers

variable {b : Body} {texts : List String} {result : Option (Except Fault Nat)}

theorem result_unique {texts' : List String} {result' : Option (Except Fault Nat)}
    (h : b.Delivers texts result) (h' : b.Delivers texts' result') : result = result' := by
  obtain ⟨_, hforward, _⟩ := forwardBody_of_delivers h
  obtain ⟨_, hforward', _⟩ := forwardBody_of_delivers h'
  exact congrArg Prod.snd (hforward.symm.trans hforward')

/-- **A log is counted exactly if it is complete and all of it is a text.** -/
theorem exists_ok_iff (h : b.Delivers texts result) :
    (∃ n, result = some (.ok n)) ↔ b.ending = .complete ∧ ∃ text, b.bytes = Text.bytes text := by
  constructor
  · rintro ⟨n, rfl⟩
    cases h with
    | @clean texts last hending hbytes hlines hlast =>
      obtain ⟨text, htext⟩ := exists_ended_eq_bytes texts
      refine ⟨hending, text ++ last, ?_⟩
      rw [hbytes, htext, Text.bytes_append]
  · rintro ⟨hending, text, hbytes⟩
    obtain ⟨lines, last, hsplit, hlines, hlast⟩ := exists_ended_of_text text
    exact ⟨_, h.result_unique (.clean hending (hbytes.trans hsplit) hlines hlast)⟩

theorem count_eq (h : b.Delivers texts result) {n : Nat} (hresult : result = some (.ok n)) :
    n = texts.length := by
  cases h <;> cases hresult
  rfl

theorem fault_eq (h : b.Delivers texts result) {fault : Fault}
    (hresult : result = some (.error fault)) :
    ∃ reason, fault = .operation "log_stream" reason := by
  cases h <;> cases hresult <;> exact ⟨_, rfl⟩

theorem endless_of_none (h : b.Delivers texts result) (hresult : result = none) :
    b.ending = .endless := by
  cases h <;> cases hresult
  assumption

end Body.Delivers

/-! ## Following a log -/

/-- The lines that are written while a log is followed are those that the client forwards. -/
theorem lines_followOutput {σ ε : Type} (client : Client σ) (job : JobIdentity) (pod : String)
    (container : Option String) (s : σ) :
    (followOutput client job pod container s : Course ε _).lines =
      ((client.followLogs job.ns pod container s).lines.map Timed.value).map outputLine := by
  have hremarks : ((client.followLogs job.ns pod container s).remarks.map Remark.deed).filterMap
      Deed.line? = [] := by
    refine List.filterMap_eq_nil_iff.2 fun d hd => ?_
    obtain ⟨remark, _, rfl⟩ := List.mem_map.1 hd
    cases remark <;> rfl
  have hask : (Act.ask (.followLogs job.ns pod container)
      (client.followLogs job.ns pod container) s : Course ε _).seen Deed.line? =
        ((client.followLogs job.ns pod container s).lines.map Timed.value).map outputLine := by
    rw [Act.seen_ask_of_answered rfl, Reply.deeds, List.filterMap_append, hremarks,
      List.filterMap_map, List.map_map]
    exact congrFun List.filterMap_eq_map _
  rw [Course.lines_eq_seen, followOutput, Act.bind_apply, Course.seen_bind_of_returned rfl,
    Act.bind_apply, Course.seen_bind_of_forall]
  · exact (Course.seen_held (fun _ => rfl) (fun _ => rfl) _ _).trans hask
  · rintro ⟨answer, t⟩
    cases answer <;> rfl

namespace Server

variable {ε α : Type}

theorem followLogs_of_reply (ns : String) {pod : String} (hpod : pod ≠ "")
    (container : Option String) (rest : List ServerAnswer) {answer : ServerAnswer}
    {raws : List String} {result : Option (Except Fault Nat)}
    (h : (logReply answer).untimed = (raws, result)) :
    (client.followLogs ns pod container ⟨answer :: rest⟩).outcome =
      result.elim .hangs (fun (answer : Except Fault Nat) => .returns answer ⟨rest⟩) ∧
    (client.followLogs ns pod container ⟨answer :: rest⟩).lines.map Timed.value = raws := by
  show (followLogs ns pod container ⟨answer :: rest⟩).outcome = _ ∧
    (followLogs ns pod container ⟨answer :: rest⟩).lines.map Timed.value = raws
  obtain ⟨hraws, hresult⟩ := Prod.mk.inj h
  rw [followLogs, if_neg hpod]
  dsimp only
  rw [hresult]
  refine ⟨?_, hraws⟩
  cases result <;> rfl

/-- **Of a log that is answered, the lines are written in order behind what was written before: each
text as it is, less its trailing blanks, however the bytes arrive, up to the point where the log
breaks off or is no text. The lines are counted exactly if it ends cleanly, and otherwise the log is
at fault. Following it ends normally, whatever comes of the log.** -/
theorem followLogs_delivers (job : JobIdentity) {pod : String} (hpod : pod ≠ "")
    (container : Option String) {status : Nat} (hstatus : isErrorStatus status = false) (b : Body)
    (rest : List ServerAnswer) :
    (∃ texts result, b.Delivers texts result) ∧
    (∀ texts result, b.Delivers texts result →
      (∃ lines, List.Forall₂ Text.Trimmed texts lines ∧
        ∀ (earlier : Act Server ε α) (s : Server) (a : α),
          (earlier s).ending = .returned (a, ⟨.answered status b :: rest⟩) →
          ((earlier >>= fun _ => followOutput client job pod container) s).lines =
            (earlier s).lines ++ lines) ∧
      (client.followLogs job.ns pod container ⟨.answered status b :: rest⟩).outcome =
        result.elim .hangs (fun (answer : Except Fault Nat) => .returns answer ⟨rest⟩) ∧
      ((∃ n, result = some (.ok n)) ↔ b.ending = .complete ∧ ∃ text, b.bytes = Text.bytes text) ∧
      (∀ n, result = some (.ok n) → n = texts.length) ∧
      (∀ fault, result = some (.error fault) → ∃ reason, fault = .operation "log_stream" reason) ∧
      (result = none → b.ending = .endless)) ∧
    ∀ s answer t, (client.followLogs job.ns pod container s).outcome = .returns answer t →
      (followOutput client job pod container s : Course ε _).ending = .returned ((), t) := by
  refine ⟨b.exists_delivers, fun texts result h => ?_, fun s answer t hreturns => ?_⟩
  · obtain ⟨raws, hforward, hraws⟩ := forwardBody_of_delivers h
    have hreply : (logReply (.answered status b)).untimed = (raws, result) := by
      rw [logReply, ServerAnswer.accepted, hstatus]
      exact hforward
    obtain ⟨houtcome, hlines⟩ := followLogs_of_reply job.ns hpod container rest hreply
    refine ⟨⟨texts.map Text.trimEnd, Text.forall₂_trimmed_iff.2 rfl,
      fun earlier s a hearlier => ?_⟩, houtcome, h.exists_ok_iff, fun n => h.count_eq,
      fun fault => h.fault_eq, h.endless_of_none⟩
    rw [Course.lines_eq_seen, Act.bind_apply, Course.seen_bind_of_returned hearlier,
      ← Course.lines_eq_seen, ← Course.lines_eq_seen, lines_followOutput, hlines, hraws]
  · rw [ending_followOutput, hreturns]

/-- A log whose second chunk starts within a character, and whose third one within the end of a
line, a second later. -/
def cutLog : Body :=
  ⟨⟨[⟨0, [104, 195]⟩, ⟨20, [169, 32, 32, 13]⟩, ⟨1000, [10, 10, 32, 98]⟩, ⟨0, [9, 108, 97]⟩]⟩,
    .complete⟩

theorem followLogs_delivers_cutLog :
    (client.followLogs "default" "batch-1-pod" none ⟨[.answered 200 cutLog]⟩).outcome =
      .returns (.ok 3) ⟨[]⟩ ∧
    (followOutput client ⟨"batch-1", "default"⟩ "batch-1-pod" none ⟨[.answered 200 cutLog]⟩ :
      Course LifecycleError _).lines = ["hé", "", " b\tla"] := by
  have hclean : cutLog.Delivers (["hé  \r", ""] ++ unended " b\tla") (some (.ok 3)) :=
    .clean rfl (by decide +kernel) (by decide) (by decide)
  obtain ⟨⟨lines, htrimmed, hlines⟩, houtcome, -⟩ :=
    (followLogs_delivers (ε := LifecycleError) (α := Unit) ⟨"batch-1", "default"⟩
      (show "batch-1-pod" ≠ "" by decide) none (show isErrorStatus 200 = false by decide) cutLog
      []).2.1 _ _ hclean
  have hwritten := hlines (pure ()) _ () rfl
  rw [Act.pure_bind, ← Text.forall₂_trimmed_iff.1 htrimmed] at hwritten
  exact ⟨houtcome, hwritten.trans (by decide +kernel)⟩

end Server

end BatchRun
