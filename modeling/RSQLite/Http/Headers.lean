import RSQLite.Library.CString
import RSQLite.Column.Affinity
import RSQLite.Http.File

/-!
The header callbacks of the HTTP VFS, and the size that it takes from the headers.
-/
namespace RSQLite

open CString

/-- A character that may stand in the name of a header. -/
def isToken (b : UInt8) : Bool :=
  33 ≤ b && b ≤ 126 && !(word "\"(),/:;<=>?@[\\]\x7b\x7d").contains b

def isBlank (b : UInt8) : Bool := b == 32 || b == 9

/-- A line of a response, with what may end it in the value. -/
structure Header where
  name : Bytes
  blanks : Bytes
  value : Bytes
  token : ∀ b ∈ name, isToken b = true
  blank : ∀ b ∈ blanks, isBlank b = true
  noNul : 0 ∉ value

namespace Header

def line (h : Header) : Bytes := h.name ++ 58 :: (h.blanks ++ h.value)

abbrev Named (h : Header) (w : String) : Prop := h.name.map tolower = word w

end Header

/-- The value of a `Content-Range` header that gives the complete size. -/
def GivesSize (value : Bytes) (size : Nat) : Prop :=
  ∃ first last complete rest : Bytes,
    value = word "bytes " ++ (first ++ 45 :: (last ++ 47 :: (complete ++ rest))) ∧
    (∀ ds ∈ [first, last, complete], ds ≠ [] ∧ ∀ d ∈ ds, isdigit d = true) ∧
    (∀ d ∈ rest.head?, isdigit d = false) ∧ size = decimalOf complete

/-- The header is the one that gives the complete size. -/
def Header.Gives (h : Header) (size : Nat) : Prop :=
  h.Named "content-range" ∧ GivesSize h.value size

/-- `struct HeaderProbe`. -/
structure HeaderProbe where
  contentLength : Int
  acceptRanges : Bool
deriving DecidableEq, Repr

def skipBlanks (p : Bytes) : Bytes := p.dropWhile isBlank

/-- `curl_header_cb()`. The transfer is not aborted. -/
def curlHeaderCb (hp : HeaderProbe) (buffer : Bytes) : HeaderProbe :=
  if 16 ≤ buffer.length ∧ strncasecmp buffer (word "Content-Length:") 15 then
    let v := atoll (skipBlanks (buffer.drop 15))
    if 0 < v then { hp with contentLength := v } else hp
  -- the NUL of the word is compared as well: the name has only 14 characters with its colon
  else if 16 ≤ buffer.length ∧ strncasecmp buffer (word "Accept-Ranges:") 15 then
    if strncasecmp (skipBlanks (buffer.drop 15)) (word "bytes") 5 then
      { hp with acceptRanges := true }
    else hp
  else hp

/-- `content_range_cb()`. The colon is not among the 13 characters that are compared and
skipped. -/
def contentRangeCb (total : Int) (buffer : Bytes) : Int :=
  if 13 ≤ buffer.length ∧ strncasecmp buffer (word "Content-Range:") 13 then
    let p := skipBlanks (buffer.drop 13)
    if strncasecmp p (word "bytes") 5 then
      match strchr p 47 with
      | none => total
      | some slash =>
          let tot := atoll (slash.drop 1)
          if 0 < tot then tot else total
    else total
  else total

theorem isToken_ne (b : UInt8) (token : isToken b = true) :
    b ≠ 58 ∧ b ≠ 0 ∧ b ≠ 47 ∧ isBlank b = false := by
  refine ⟨?_, ?_, ?_, ?_⟩
  · rintro rfl
    exact absurd token (by decide)
  · rintro rfl
    exact absurd token (by decide)
  · rintro rfl
    exact absurd token (by decide)
  · by_contra blank
    rw [Bool.not_eq_false, isBlank, Bool.or_eq_true, beq_iff_eq, beq_iff_eq] at blank
    obtain rfl | rfl := blank
    · exact absurd token (by decide)
    · exact absurd token (by decide)

theorem isBlank_ne (b : UInt8) (blank : isBlank b = true) :
    b ≠ 0 ∧ b ≠ 47 ∧ isspace b = true := by
  rw [isBlank, Bool.or_eq_true, beq_iff_eq, beq_iff_eq] at blank
  obtain rfl | rfl := blank
  · decide
  · decide

theorem integerOf_skipBlanks (p : Bytes) : integerOf (skipBlanks p) = integerOf p := by
  conv_rhs => rw [← List.takeWhile_append_dropWhile (p := isBlank) (l := p)]
  refine (integerOf_blanks _ _ ?_).symm
  intro b member
  exact (isBlank_ne b (List.mem_takeWhile_imp member)).2.2

namespace Header

variable (h : Header)

theorem colon_absent : (58 : UInt8) ∉ h.name.map tolower := by
  refine not_mem_map_tolower _ _ (by decide) ?_
  intro member
  exact (isToken_ne 58 (h.token 58 member)).1 rfl

theorem line_noNul : (0 : UInt8) ∉ h.line.map tolower := by
  refine not_mem_map_tolower _ _ (by decide) ?_
  rw [line, List.mem_append, List.mem_cons, List.mem_append]
  rintro (inName | colon | inBlanks | inValue)
  · exact (isToken_ne 0 (h.token 0 inName)).2.1 rfl
  · exact absurd colon (by decide)
  · exact (isBlank_ne 0 (h.blank 0 inBlanks)).1 rfl
  · exact h.noNul inValue

theorem integerOf_text : integerOf (h.blanks ++ h.value) = integerOf h.value :=
  integerOf_blanks _ _ fun b member => (isBlank_ne b (h.blank b member)).2.2

theorem drop_name (n : Nat) (long : h.name.length = n) :
    h.line.drop (n + 1) = h.blanks ++ h.value := by
  rw [line, ← long, List.drop_append, List.drop_of_length_le (Nat.le_succ _),
    Nat.add_sub_cancel_left]
  rfl

end Header

section Spec

variable (h : Header)

theorem compares_contentLength :
    strncasecmp h.line (word "Content-Length:") 15 = true ↔ h.Named "content-length" :=
  strncasecmp_delimited h.name (h.blanks ++ h.value) (word "Content-Length") 58 (by decide)
    h.colon_absent (by decide)

theorem compares_acceptRanges (long : 16 ≤ h.line.length) :
    strncasecmp h.line (word "Accept-Ranges:") 15 = false :=
  strncasecmp_short _ _ _ h.line_noNul (Nat.le_of_succ_le long) (by decide)

/-- The header callback of the probe. -/
theorem curlHeaderCb_line (hp : HeaderProbe) :
    curlHeaderCb hp h.line =
      if h.Named "content-length" ∧ 0 < integerOf h.value then
        { hp with contentLength := min (integerOf h.value) (2 ^ 63 - 1) }
      else hp := by
  have ranges : ¬ (16 ≤ h.line.length ∧ strncasecmp h.line (word "Accept-Ranges:") 15) := by
    rintro ⟨long, compared⟩
    rw [compares_acceptRanges h long] at compared
    exact Bool.false_ne_true compared
  rw [curlHeaderCb, if_neg ranges]
  by_cases named : h.Named "content-length"
  · have length : h.name.length = 14 := by
      rw [← List.length_map tolower, named]
      rfl
    have text := h.drop_name 14 length
    have value : integerOf (skipBlanks (h.line.drop 15)) = integerOf h.value := by
      rw [integerOf_skipBlanks, text, h.integerOf_text]
    by_cases positive : 0 < integerOf h.value
    · have long : 16 ≤ h.line.length := by
        by_contra short
        rw [List.drop_of_length_le (by omega)] at value
        rw [← value] at positive
        exact absurd positive (by decide)
      have taken : 16 ≤ h.line.length ∧ strncasecmp h.line (word "Content-Length:") 15 :=
        ⟨long, (compares_contentLength h).mpr named⟩
      have given : h.Named "content-length" ∧ 0 < integerOf h.value := ⟨named, positive⟩
      rw [← value] at positive
      rw [if_pos taken, if_pos given, if_pos ((atoll_pos _).mpr positive),
        atoll_of_pos _ positive, value]
    · have withheld : ¬ (h.Named "content-length" ∧ 0 < integerOf h.value) :=
        fun both => positive both.2
      rw [← value, ← atoll_pos] at positive
      rw [if_neg withheld, if_neg positive, ite_self]
  · have passed : ¬ (16 ≤ h.line.length ∧ strncasecmp h.line (word "Content-Length:") 15) :=
      fun both => named ((compares_contentLength h).mp both.2)
    have other : ¬ (h.Named "content-length" ∧ 0 < integerOf h.value) := fun both => named both.1
    rw [if_neg passed, if_neg other]

/-- The size that a header which begins with the name of another one is taken for, or 0. -/
def Header.misread (h : Header) : Int :=
  if (h.name.take 18).map tolower = word "content-rangebytes" then
    match strchr h.value 47 with
    | none => 0
    | some slash => atoll (slash.drop 1)
  else 0

theorem compares_contentRange :
    strncasecmp h.line (word "Content-Range:") 13 = true ↔
      (h.name.take 13).map tolower = word "content-range" :=
  strncasecmp_take h.name (h.blanks ++ h.value) (word "Content-Range") 58 (word ":") (by decide)
    (by decide)

theorem slash_absent : (47 : UInt8) ∉ h.name ++ 58 :: h.blanks := by
  rw [List.mem_append, List.mem_cons]
  rintro (inName | colon | inBlanks)
  · exact (isToken_ne 47 (h.token 47 inName)).2.2.1 rfl
  · exact absurd colon (by decide)
  · exact (isBlank_ne 47 (h.blank 47 inBlanks)).2.1 rfl

/-- The name begins with two words, if it begins with the first and goes on with the second. -/
theorem misnamed_iff (begins : (h.name.take 13).map tolower = word "content-range") :
    (h.name.take 18).map tolower = word "content-rangebytes" ↔
      ((h.name.drop 13).take 5).map tolower = word "bytes" := by
  have words : word "content-rangebytes" = word "content-range" ++ word "bytes" := by decide
  have parts : h.name.take 18 = h.name.take 13 ++ (h.name.drop 13).take 5 :=
    List.take_add (i := 13) (j := 5)
  rw [parts, List.map_append, begins, words, List.append_cancel_left_eq]

theorem skipBlanks_behind (enough : 13 ≤ h.name.length) :
    skipBlanks (h.line.drop 13) = h.name.drop 13 ++ 58 :: (h.blanks ++ h.value) := by
  have dropped : h.line.drop 13 = h.name.drop 13 ++ 58 :: (h.blanks ++ h.value) :=
    List.drop_append_of_le_length enough
  rw [dropped]
  cases rest : h.name.drop 13 with
  | nil => rfl
  | cons b rest =>
      have member : b ∈ h.name := List.mem_of_mem_drop (rest ▸ List.mem_cons_self)
      refine List.dropWhile_cons_of_neg ?_
      rw [(isToken_ne b (h.token b member)).2.2.2]
      exact Bool.false_ne_true

theorem strchr_behind :
    strchr (h.name.drop 13 ++ 58 :: (h.blanks ++ h.value)) 47 = strchr h.value 47 := by
  have absent : (47 : UInt8) ∉ h.name.drop 13 ++ 58 :: h.blanks := by
    intro member
    refine slash_absent h ?_
    rw [List.mem_append] at member ⊢
    exact member.imp_left List.mem_of_mem_drop
  rw [← List.cons_append, ← List.append_assoc]
  exact strchr_append _ _ _ absent

theorem compares_bytes :
    strncasecmp (h.name.drop 13 ++ 58 :: (h.blanks ++ h.value)) (word "bytes") 5 = true ↔
      ((h.name.drop 13).take 5).map tolower = word "bytes" :=
  strncasecmp_take (h.name.drop 13) (h.blanks ++ h.value) (word "bytes") 58 [] (by decide)
    (by decide)

/-- The header callback of a range request. -/
theorem contentRangeCb_line (total : Int) :
    contentRangeCb total h.line = if 0 < h.misread then h.misread else total := by
  rw [contentRangeCb]
  by_cases begins : (h.name.take 13).map tolower = word "content-range"
  · have enough : 13 ≤ h.name.length := by
      have length := congrArg List.length begins
      have letters : (word "content-range").length = 13 := rfl
      rw [List.length_map, List.length_take] at length
      omega
    have taken : 13 ≤ h.line.length ∧ strncasecmp h.line (word "Content-Range:") 13 := by
      refine ⟨?_, (compares_contentRange h).mpr begins⟩
      rw [Header.line, List.length_append]
      exact Nat.le_add_right_of_le enough
    rw [if_pos taken, skipBlanks_behind h enough]
    dsimp only
    rw [strchr_behind]
    by_cases misnamed : (h.name.take 18).map tolower = word "content-rangebytes"
    · have compared := (compares_bytes h).mpr ((misnamed_iff h begins).mp misnamed)
      rw [if_pos compared, Header.misread, if_pos misnamed]
      cases strchr h.value 47 with
      | none => rfl
      | some slash => rfl
    · have other : ¬ strncasecmp (h.name.drop 13 ++ 58 :: (h.blanks ++ h.value)) (word "bytes") 5 :=
        fun compared => misnamed ((misnamed_iff h begins).mpr ((compares_bytes h).mp compared))
      rw [if_neg other, Header.misread, if_neg misnamed, if_neg (lt_irrefl 0)]
  · have passed : ¬ (13 ≤ h.line.length ∧ strncasecmp h.line (word "Content-Range:") 13) :=
      fun both => begins ((compares_contentRange h).mp both.2)
    have named : ¬ (h.name.take 18).map tolower = word "content-rangebytes" := by
      intro misnamed
      refine begins ?_
      have shorter := congrArg (List.take 13) misnamed
      rw [← List.map_take, List.take_take] at shorter
      exact shorter
    rw [if_neg passed, Header.misread, if_neg named, if_neg (lt_irrefl 0)]

end Spec

section Read

/-- What should be known after a header of the response to HEAD. -/
def Header.probed (h : Header) (hp : HeaderProbe) : HeaderProbe :=
  if h.Named "content-length" ∧ 0 < integerOf h.value then
    { hp with contentLength := integerOf h.value }
  else if h.Named "accept-ranges" ∧ word "bytes" <+: h.value then { hp with acceptRanges := true }
  else hp

/-- The size after a header is the one that it gives, or else the one before. -/
def Header.SizeRead (h : Header) (total result : Int) : Prop :=
  (∀ size : Nat, 0 < size → h.Gives size → result = size) ∧
    ((¬ ∃ size : Nat, 0 < size ∧ h.Gives size) → result = total)

variable (h : Header)

theorem probe_reads_iff (hp : HeaderProbe) :
    curlHeaderCb hp h.line = h.probed hp ↔
      (h.Named "content-length" → integerOf h.value < 2 ^ 63) ∧
        (h.Named "accept-ranges" → word "bytes" <+: h.value → hp.acceptRanges = true) := by
  rw [curlHeaderCb_line, Header.probed]
  by_cases length : h.Named "content-length"
  · have other : ¬ h.Named "accept-ranges" := by
      rw [Header.Named, length]
      decide
    have noRanges : ¬ (h.Named "accept-ranges" ∧ word "bytes" <+: h.value) :=
      fun both => other both.1
    rw [if_neg noRanges]
    by_cases positive : 0 < integerOf h.value
    · rw [if_pos ⟨length, positive⟩, if_pos ⟨length, positive⟩, HeaderProbe.mk.injEq]
      constructor
      · rintro ⟨same, -⟩
        exact ⟨fun _ => by omega, fun ranges => absurd ranges other⟩
      · rintro ⟨small, -⟩
        have small := small length
        exact ⟨by omega, rfl⟩
    · have withheld : ¬ (h.Named "content-length" ∧ 0 < integerOf h.value) :=
        fun both => positive both.2
      rw [if_neg withheld, if_neg withheld]
      exact iff_of_true rfl ⟨fun _ => by omega, fun ranges => absurd ranges other⟩
  · have other : ¬ (h.Named "content-length" ∧ 0 < integerOf h.value) := fun both => length both.1
    rw [if_neg other, if_neg other]
    by_cases ranges : h.Named "accept-ranges" ∧ word "bytes" <+: h.value
    · obtain ⟨contentLength, acceptRanges⟩ := hp
      rw [if_pos ranges, HeaderProbe.mk.injEq]
      constructor
      · rintro ⟨-, same⟩
        exact ⟨fun named => absurd named length, fun _ _ => same⟩
      · rintro ⟨-, known⟩
        exact ⟨rfl, known ranges.1 ranges.2⟩
    · rw [if_neg ranges]
      exact iff_of_true rfl ⟨fun named => absurd named length,
        fun named given => absurd ⟨named, given⟩ ranges⟩

theorem misread_named (named : h.Named "content-range") : h.misread = 0 := by
  refine if_neg ?_
  intro misnamed
  have longer := congrArg List.length misnamed
  rw [List.map_take, named] at longer
  exact absurd longer (by decide)

theorem range_reads_iff (total : Int) :
    h.SizeRead total (contentRangeCb total h.line) ↔
      (∀ size : Nat, 0 < size → h.Gives size → total = size) ∧
        (0 < h.misread → h.misread = total) := by
  rw [contentRangeCb_line, Header.SizeRead]
  by_cases given : ∃ size : Nat, 0 < size ∧ h.Gives size
  · have named : h.Named "content-range" := by
      obtain ⟨size, -, named, -⟩ := given
      exact named
    rw [misread_named h named, if_neg (lt_irrefl 0)]
    refine and_congr_right (fun _ => ?_)
    exact iff_of_true (fun _ => rfl) (fun positive => absurd positive (lt_irrefl 0))
  · have none (P : Nat → Prop) : ∀ size : Nat, 0 < size → h.Gives size → P size :=
      fun size positive gives => absurd ⟨size, positive, gives⟩ given
    rw [and_iff_right (none _), and_iff_right (none _)]
    by_cases misread : 0 < h.misread
    · rw [if_pos misread]
      exact ⟨fun same _ => same given, fun same _ => same misread⟩
    · rw [if_neg misread]
      exact iff_of_true (fun _ => rfl) (fun positive => absurd positive misread)

end Read

section Size

variable (server : Server) (env : Environment)

def httpFileSize (s : HttpState) : Int × HttpState :=
  match s.file.data with
  | some data => (data.length, s)
  | none =>
      match httpProbeMeta server env s with
      | (.ok, s) => (if 0 < s.file.contentLength then s.file.contentLength else 0, s)
      | (_, s) => (0, s)

/-- The response to a request that is answered. -/
structure Response where
  code : Nat
  body : Bytes
  headers : List Header
  short : body.length < 0x7fffff00

namespace Response

def total (p : Response) : Int :=
  p.headers.foldl (fun total h => contentRangeCb total h.line) (-1)

/-- The size that the last of its misread headers gives. -/
def misread (p : Response) : Option Int :=
  (p.headers.map Header.misread).reverse.find? (0 < ·)

/-- A transfer that fails has no response. -/
def answer : Option Response → Answer
  | none => .failed
  | some p => .answered p.code p.body p.total

end Response

/-- The server answers the requests for ranges, and those for the file, with these responses. -/
def Server.answering (server : Server) (ranges downloads : Nat → Option Response) : Server :=
  { server with
    range := fun n _ _ => Response.answer (ranges n)
    download := fun n => Response.answer (downloads n) }

/-- How a request for a range ends: with a part, with a response that ignores the range while the
file is downloaded, or refused. -/
inductive Exchange
  | part (p : Response)
  | whole (p file : Response)
  | refused

namespace Exchange

def response : Exchange → Option Response
  | part p | whole p _ => some p
  | refused => none

def misread (e : Exchange) : Option Int := e.response.bind Response.misread

/-- The size of the file that is downloaded. -/
def fileSize : Exchange → Option Nat
  | whole _ file => if file.body = [] then none else some file.body.length
  | part _ | refused => none

end Exchange

variable (ranges downloads : Nat → Option Response)

/-- How the request for a range ends that is the `n`-th transfer, and the number of the next one. -/
def exchange (fallbackFull : Bool) (n : Nat) (downloaded : Bool) : Exchange × Nat :=
  match ranges n with
  | none => (.refused, n + 1)
  | some p =>
      if 400 ≤ p.code then (.refused, n + 1)
      else if p.code = 206 then (.part p, n + 1)
      else if fallbackFull = true ∧ downloaded = false then
        match downloads (n + 1) with
        | none => (.refused, n + 2)
        | some file => if 400 ≤ file.code then (.refused, n + 2) else (.whole p file, n + 2)
      else (.refused, n + 1)

def exchanges (fallbackFull : Bool) : Nat → Nat → Bool → List Exchange
  | 0, _, _ => []
  | more + 1, n, downloaded =>
      let e := exchange ranges downloads fallbackFull n downloaded
      e.1 :: exchanges fallbackFull more e.2 (downloaded || e.1.fileSize.isSome)

/-- Ranges are fetched one after the other. -/
def fetchRanges (requests : List (Int × Nat)) (s : HttpState) : HttpState :=
  requests.foldl (fun s request => (httpFetchRange server request.1 request.2 s).2.2) s

/-- The file is probed, which requests a range as well, before ranges are fetched. -/
def probeAndFetch (requests : List (Int × Nat)) (s : HttpState) : HttpState :=
  match httpProbeMeta server env s with
  | (.ok, s) => fetchRanges server requests s
  | (_, s) => s

theorem total_eq (p : Response) : p.total = p.misread.getD (-1) := by
  rw [Response.total, Response.misread]
  induction p.headers using List.reverseRecOn with
  | nil => rfl
  | append_singleton hs h ih =>
      rw [List.foldl_append, List.map_append, List.reverse_append, List.map_singleton,
        List.reverse_singleton, List.singleton_append, List.find?_cons, List.foldl_cons,
        List.foldl_nil, contentRangeCb_line, ih]
      by_cases misread : 0 < h.misread
      · rw [if_pos misread, decide_eq_true misread]
        rfl
      · rw [if_neg misread, decide_eq_false misread]

theorem misread_pos (p : Response) (size : Int) (found : p.misread = some size) : 0 < size := by
  rw [Response.misread] at found
  have test := List.find?_some found
  exact of_decide_eq_true test

theorem perform_answer (p : Option Response) : perform (Response.answer p) = Response.answer p := by
  cases p with
  | none => rfl
  | some p => exact if_pos p.short

/-- The length of a file after the requests for ranges. -/
def lengthAfter (length : Int) (es : List Exchange) : Int :=
  if length < 0 then (es.findSome? Exchange.misread).getD length else length

/-- The size of the downloaded file after them. -/
def sizeAfter (size : Option Nat) (es : List Exchange) : Option Nat :=
  size.or (es.findSome? Exchange.fileSize)

/-- What the requests for ranges have done to a file. -/
structure Exchanged (s : HttpState) (es : List Exchange) (s' : HttpState) : Prop where
  haveMeta : s'.file.haveMeta = s.file.haveMeta
  fallbackFull : s'.file.fallbackFull = s.file.fallbackFull
  length : s'.file.contentLength = lengthAfter s.file.contentLength es
  size : s'.file.data.map List.length = sizeAfter (s.file.data.map List.length) es

theorem learns_length (length : Int) (p : Response) :
    (if 0 < p.total ∧ length < 0 then p.total else length) =
      if length < 0 then (p.misread).getD length else length := by
  rw [total_eq]
  by_cases unknown : length < 0
  · rw [if_pos unknown]
    cases found : p.misread with
    | none => rfl
    | some size => exact if_pos ⟨misread_pos p size found, unknown⟩
  · rw [if_neg unknown]
    exact if_neg (fun both => unknown both.2)

theorem exchanged_delivered (s s' : HttpState) (p : Response) (e : Exchange)
    (response : e.response = some p) (same : s'.file = { s.file with data := s'.file.data })
    (size : s'.file.data.map List.length = sizeAfter (s.file.data.map List.length) [e]) :
    Exchanged s [e] (s'.delivered p.body p.total).2.2 := by
  refine ⟨?_, ?_, ?_, size⟩
  · change s'.file.haveMeta = _
    rw [same]
  · change s'.file.fallbackFull = _
    rw [same]
  · change (if 0 < p.total ∧ s'.file.contentLength < 0 then p.total else s'.file.contentLength) = _
    rw [same, learns_length, lengthAfter, List.findSome?_singleton, Exchange.misread, response]
    rfl

theorem exchanged_refused (s : HttpState) (n : Nat) :
    Exchanged s [.refused] { s with requests := n } :=
  ⟨rfl, rfl, (ite_self _).symm, (Option.or_none).symm⟩

/-- One request for a range. -/
theorem httpFetchRange_exchanged (off : Int) (len : Nat) (s : HttpState) :
    (httpFetchRange (server.answering ranges downloads) off len s).2.2.requests =
        (exchange ranges downloads s.file.fallbackFull s.requests s.file.data.isSome).2 ∧
      Exchanged s
        [(exchange ranges downloads s.file.fallbackFull s.requests s.file.data.isSome).1]
        (httpFetchRange (server.answering ranges downloads) off len s).2.2 := by
  have range : perform ((server.answering ranges downloads).range s.requests off (off + len - 1)) =
      Response.answer (ranges s.requests) := perform_answer _
  have undownloaded : s.file.data.isSome = false ↔ s.file.data = none :=
    Option.isSome_eq_false_iff.trans Option.isNone_iff_eq_none
  rw [httpFetchRange, range, exchange]
  cases ranges s.requests with
  | none => exact ⟨rfl, exchanged_refused s _⟩
  | some p =>
      simp only [Response.answer]
      split
      · exact ⟨rfl, exchanged_refused s _⟩
      split
      · exact ⟨rfl, exchanged_delivered s s.answeredOnce p (.part p) rfl rfl Option.or_none.symm⟩
      by_cases fallback : s.file.fallbackFull = true ∧ s.file.data = none
      · have download : perform ((server.answering ranges downloads).download (s.requests + 1)) =
            Response.answer (downloads (s.requests + 1)) := perform_answer _
        -- a download that fails leaves the file without data, as it was
        have unchanged : ∀ n, ({ s with file.data := none, requests := n } : HttpState) =
            { s with requests := n } := by
          intro n
          rw [← fallback.2]
        rw [if_pos fallback, if_pos (And.imp_right undownloaded.mpr fallback), httpDownload,
          show s.answeredOnce.requests = s.requests + 1 from rfl, download]
        cases downloads (s.requests + 1) with
        | none =>
            have refused := exchanged_refused s (s.requests + 2)
            rw [← unchanged] at refused
            exact ⟨rfl, refused⟩
        | some file =>
            simp only [Response.answer]
            by_cases refuses : 400 ≤ file.code
            · have refused := exchanged_refused s (s.requests + 2)
              rw [← unchanged] at refused
              simp only [if_pos refuses]
              exact ⟨rfl, refused⟩
            · simp only [if_neg refuses]
              refine ⟨rfl, exchanged_delivered s _ p (.whole p file) rfl rfl ?_⟩
              rw [sizeAfter, fallback.2, List.findSome?_singleton, Exchange.fileSize]
              change Option.map List.length (if file.body = [] then none else some file.body) = _
              split <;> rfl
      · rw [if_neg fallback, if_neg (fun both => fallback (And.imp_right undownloaded.mp both))]
        exact ⟨rfl, exchanged_refused s _⟩

theorem Exchanged.trans {s s' s'' : HttpState} {e : Exchange} {es : List Exchange}
    (first : Exchanged s [e] s') (later : Exchanged s' es s'') : Exchanged s (e :: es) s'' where
  haveMeta := later.haveMeta.trans first.haveMeta
  fallbackFull := later.fallbackFull.trans first.fallbackFull
  length := by
    rw [later.length, first.length, lengthAfter, lengthAfter, lengthAfter,
      List.findSome?_singleton, List.findSome?_cons]
    by_cases unknown : s.file.contentLength < 0
    · rw [if_pos unknown, if_pos unknown]
      cases found : e.misread with
      | none => exact if_pos unknown
      | some size =>
          obtain ⟨p, _, misread⟩ := Option.bind_eq_some_iff.mp found
          exact if_neg (Int.not_lt.mpr (Int.le_of_lt (misread_pos p size misread)))
    · rw [if_neg unknown, if_neg unknown, if_neg unknown]
  size := by
    rw [later.size, first.size, sizeAfter, sizeAfter, sizeAfter, List.findSome?_singleton,
      List.findSome?_cons, Option.or_assoc]
    cases e.fileSize <;> rfl

theorem fetchRanges_exchanged (requests : List (Int × Nat)) (s : HttpState) :
    Exchanged s (exchanges ranges downloads s.file.fallbackFull requests.length s.requests
      s.file.data.isSome) (fetchRanges (server.answering ranges downloads) requests s) := by
  induction requests generalizing s with
  | nil => exact ⟨rfl, rfl, (ite_self _).symm, (Option.or_none).symm⟩
  | cons request requests ih =>
      obtain ⟨number, first⟩ :=
        httpFetchRange_exchanged server ranges downloads request.1 request.2 s
      have later := ih (httpFetchRange (server.answering ranges downloads) request.1 request.2 s).2.2
      have size := first.size
      rw [sizeAfter, List.findSome?_singleton] at size
      have downloaded := congrArg Option.isSome size
      rw [Option.isSome_or, Option.isSome_map, Option.isSome_map] at downloaded
      rw [first.fallbackFull, number, downloaded] at later
      exact first.trans later

/-- A file that has been probed reports what was downloaded, or else the length if it is known. -/
theorem reported_probed (s : HttpState) (probed : s.file.haveMeta = true) :
    (httpFileSize server env s).1 =
      match s.file.data.map List.length with
      | some size => (size : Int)
      | none => if 0 < s.file.contentLength then s.file.contentLength else 0 := by
  rw [httpFileSize]
  cases s.file.data with
  | some data => rfl
  | none =>
      dsimp only
      rw [httpProbeMeta, if_pos probed]
      rfl

/-- A file whose length is asked for with HEAD when it is read first. -/
structure Untouched (s : HttpState) : Prop where
  haveMeta : s.file.haveMeta = false
  data : s.file.data = none

/-- The response to the request for the first bytes, if the probe succeeds. -/
def probeResponse (s : HttpState) : Option Response :=
  (ranges (s.requests + 1)).filter fun p => decide (p.code < 400)

/-- The requests for ranges that follow the probe. -/
def rangesFetched (requests : List (Int × Nat)) (s : HttpState) : List Exchange :=
  exchanges ranges downloads s.file.fallbackFull requests.length (s.requests + 2) false

/-- The responses to requests for ranges that are accepted. -/
def accepted (requests : List (Int × Nat)) (s : HttpState) : List Response :=
  match probeResponse ranges s with
  | none => []
  | some p => p :: (rangesFetched ranges downloads requests s).filterMap Exchange.response

/-- The size that is known after the requests for ranges: that of the downloaded file, or else the
first one that is misread. -/
def knownSize (es : List Exchange) : Option Int :=
  ((es.findSome? Exchange.fileSize).map Int.ofNat).or (es.findSome? Exchange.misread)

theorem probe_response (s : HttpState) (untouched : Untouched s) (p : Response)
    (answered : probeResponse ranges s = some p) :
    httpProbeMeta (server.answering ranges downloads) env s =
      (.ok,
        { s with
          file := s.file.probed env (headLength (server.head s.requests)) p.body
          requests := s.requests + 2 }) := by
  obtain ⟨some_, accepts⟩ := Option.filter_eq_some_iff.mp answered
  have performed : perform ((server.answering ranges downloads).range (s.requests + 1) 0 31) =
      .answered p.code p.body p.total := by
    refine (perform_answer _).trans ?_
    rw [some_]
    rfl
  rw [httpProbeMeta, untouched.haveMeta, if_neg Bool.false_ne_true, performed]
  dsimp only
  rw [if_neg (Nat.not_le.mpr (of_decide_eq_true accepts))]
  rfl

/-- What is reported of a file whose length HEAD did not give. -/
theorem reported_iff (requests : List (Int × Nat)) (s : HttpState) (untouched : Untouched s)
    (withheld : headLength (server.head s.requests) < 0) (p : Response)
    (answered : probeResponse ranges s = some p) (size : Nat) (positive : 0 < size) :
    (httpFileSize (server.answering ranges downloads) env
        (probeAndFetch (server.answering ranges downloads) env requests s)).1 = size ↔
      knownSize (rangesFetched ranges downloads requests s) = some (size : Int) := by
  rw [probeAndFetch, probe_response server env ranges downloads s untouched p answered]
  have run : Exchanged _ (rangesFetched ranges downloads requests s) _ :=
    untouched.data ▸ fetchRanges_exchanged server ranges downloads requests
      { s with
        file := s.file.probed env (headLength (server.head s.requests)) p.body
        requests := s.requests + 2 }
  have size_ := run.size
  have length := run.length
  rw [show (s.file.probed env (headLength (server.head s.requests)) p.body).data = none from
    untouched.data, Option.map_none, sizeAfter, Option.none_or] at size_
  rw [show (s.file.probed env (headLength (server.head s.requests)) p.body).contentLength =
    headLength (server.head s.requests) from rfl, lengthAfter, if_pos withheld] at length
  dsimp only
  rw [reported_probed _ _ _ run.haveMeta, size_, length, knownSize]
  cases (rangesFetched ranges downloads requests s).findSome? Exchange.fileSize with
  | some known =>
      change (known : Int) = size ↔ some (known : Int) = some (size : Int)
      rw [Option.some.injEq]
  | none =>
      rw [Option.map_none, Option.none_or]
      cases found : (rangesFetched ranges downloads requests s).findSome? Exchange.misread with
      | none =>
          have zero : ¬ 0 < headLength (server.head s.requests) := by omega
          rw [Option.getD_none]
          dsimp only
          rw [if_neg zero]
          exact iff_of_false (by omega) (fun no => by cases no)
      | some known =>
          obtain ⟨e, -, misread⟩ := List.exists_of_findSome?_eq_some found
          obtain ⟨p, -, misread⟩ := Option.bind_eq_some_iff.mp misread
          rw [Option.getD_some]
          dsimp only
          rw [if_pos (misread_pos p known misread), Option.some.injEq]

/-- A header of one of the responses gives the size. -/
def Carried (responses : List Response) (size : Nat) : Prop :=
  0 < size ∧ ∃ p ∈ responses, ∃ h ∈ p.headers, h.Gives size

/-- The probe reads each header, but that a length of 2^63 or more is clamped and the ranges
that the server accepts are not noticed. A `Content-Range` is not read at all, while another
header may be taken for it, and the size that is reported comes from the latter, or from a file
that is downloaded. -/
theorem headers_read_iff (h : Header) (hp : HeaderProbe) (total : Int)
    (requests : List (Int × Nat)) (s : HttpState) (untouched : Untouched s)
    (withheld : headLength (server.head s.requests) < 0) :
    (curlHeaderCb hp h.line = h.probed hp ↔
        (h.Named "content-length" → integerOf h.value < 2 ^ 63) ∧
          (h.Named "accept-ranges" → word "bytes" <+: h.value → hp.acceptRanges = true)) ∧
      (h.SizeRead total (contentRangeCb total h.line) ↔
        (∀ size : Nat, 0 < size → h.Gives size → total = size) ∧
          (0 < h.misread → h.misread = total)) ∧
      ((∀ size, Carried (accepted ranges downloads requests s) size →
          (httpFileSize (server.answering ranges downloads) env
            (probeAndFetch (server.answering ranges downloads) env requests s)).1 = size) ↔
        ∀ size, Carried (accepted ranges downloads requests s) size →
          knownSize (rangesFetched ranges downloads requests s) = some (size : Int)) := by
  refine ⟨probe_reads_iff h hp, range_reads_iff h total, ?_⟩
  refine forall_congr' (fun size => imp_congr_right (fun carried => ?_))
  cases answered : probeResponse ranges s with
  | none =>
      obtain ⟨-, p, member, -⟩ := carried
      rw [accepted, answered] at member
      cases member
  | some p =>
      exact reported_iff server env ranges downloads requests s untouched withheld p answered size
        carried.1

end Size

/-- A length in an unusual spelling. -/
def shoutedLength : Header where
  name := word "CONTENT-LENGTH"
  blanks := word "\t "
  value := word "8192\r\n"
  token := by decide +kernel
  blank := by decide +kernel
  noNul := by decide

/-- The size as it is given with a part of a file. -/
def contentRange : Header where
  name := word "Content-Range"
  blanks := word " "
  value := word "bytes 0-31/8192\r\n"
  token := by decide +kernel
  blank := by decide +kernel
  noNul := by decide

theorem contentRange_gives : contentRange.Gives 8192 := by
  refine ⟨by decide, word "0", word "31", word "8192", word "\r\n", by decide, ?_, ?_, ?_⟩
  · decide +kernel
  · decide +kernel
  · decide +kernel

/-- A server that refuses HEAD. -/
def headless : Server where
  head := fun _ => .answered 405 (-1)
  range := fun _ _ _ => .failed
  download := fun _ => .failed

def unread : HttpState where
  file :=
    { data := none, haveMeta := false, contentLength := -1, pageSize := 4096, cacheCapacity := 0
      cacheCount := 0, cachePageNo := [], cacheData := [], fallbackFull := true
      prefetchPages := 0 }
  heap := []
  requests := 0

def sizedPart (_ : Nat) : Option Response :=
  some ⟨206, List.replicate 32 0, [shoutedLength, contentRange], by decide⟩

theorem headers_read_iff_shouted :
    curlHeaderCb ⟨-1, false⟩ shoutedLength.line = ⟨8192, false⟩ :=
  (headers_read_iff headless ⟨none, none, none⟩ sizedPart sizedPart shoutedLength ⟨-1, false⟩ (-1)
    [] unread ⟨rfl, rfl⟩ (by decide)).1.mpr ⟨fun _ => by decide,
      fun named => absurd named (by decide)⟩

/-- The size that a server gives with each part is not read, and the file has none. -/
theorem contentRange_unread :
    ¬ contentRange.SizeRead (-1) (contentRangeCb (-1) contentRange.line) ∧
      Carried (accepted sizedPart sizedPart [(0, 4096)] unread) 8192 ∧
      (httpFileSize (headless.answering sizedPart sizedPart) ⟨none, none, none⟩
        (probeAndFetch (headless.answering sizedPart sizedPart) ⟨none, none, none⟩ [(0, 4096)]
          unread)).1 = 0 := by
  refine ⟨?_, ⟨by decide, _, List.mem_cons_self, contentRange,
    List.mem_cons_of_mem _ List.mem_cons_self, contentRange_gives⟩, by decide⟩
  rintro ⟨given, -⟩
  exact absurd (given 8192 (by decide) contentRange_gives) (by decide)

end RSQLite
