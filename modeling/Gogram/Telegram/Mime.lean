/-
# Telegram.Mime — the extension table and what `resolveMimeType` answers

`resolveMimeType(filePath)` opens the file and sniffs its first bytes with
`http.DetectContentType`; only when `os.Open` fails does it fall back to `matchMimeType`,
the first entry of `MimeTypes` whose extension ends the path. When that finds nothing it
reads from the nil `*os.File`, which fails, and answers `("", false)`. `mimeIsPhoto`
marks `image/` types other than `image/webp` as photos.

Every extension of the table is a dot and then no dot, so at most one extension can end a
path: the one from its last dot. The first-match loop therefore does not depend on the
order of the table, and the two entries the table lists twice agree.

* `unopened_reads_last_extension`: for a file `os.Open` cannot open, `resolveMimeType`
  answers from the text after the path's last dot alone;
* `matchMimeType_of_any_entry`: every entry whose extension ends a path gives the answer;
* `unopened_photo_iff`: for a file `os.Open` cannot open, `resolveMimeType` says photo
  exactly when the last extension is one of nine.
-/
import Mathlib.Data.List.Infix

namespace Gogram.Telegram

set_option autoImplicit false

/-! ## The table and the helpers -/

/-- An entry of `MimeTypes`. -/
structure Mime where
  extension : String
  mime : String
  deriving DecidableEq, Repr

/-- `MimeTypes`, in the source's order, `.3gp` and `.7z` twice. -/
def mimeTypes : List Mime := [
  Mime.mk ".3gp" "video/3gpp", Mime.mk ".7z" "application/x-7z-compressed", Mime.mk ".aac" "audio/x-aac",
  Mime.mk ".abw" "application/x-abiword", Mime.mk ".arc" "application/x-freearc", Mime.mk ".avi" "video/x-msvideo",
  Mime.mk ".azw" "application/vnd.amazon.ebook", Mime.mk ".bin" "application/octet-stream", Mime.mk ".bmp" "image/bmp",
  Mime.mk ".bz" "application/x-bzip", Mime.mk ".bz2" "application/x-bzip2", Mime.mk ".csh" "application/x-csh",
  Mime.mk ".css" "text/css", Mime.mk ".csv" "text/csv", Mime.mk ".doc" "application/msword",
  Mime.mk ".docx" "application/vnd.openxmlformats-officedocument.wordprocessingml.document",
  Mime.mk ".eot" "application/vnd.ms-fontobject", Mime.mk ".epub" "application/epub+zip",
  Mime.mk ".gz" "application/gzip", Mime.mk ".gif" "image/gif", Mime.mk ".htm" "text/html",
  Mime.mk ".html" "text/html", Mime.mk ".ico" "image/vnd.microsoft.icon", Mime.mk ".ics" "text/calendar",
  Mime.mk ".jar" "application/java-archive", Mime.mk ".jpeg" "image/jpeg", Mime.mk ".jpg" "image/jpeg",
  Mime.mk ".js" "text/javascript", Mime.mk ".json" "application/json", Mime.mk ".jsonld" "application/ld+json",
  Mime.mk ".mid" "audio/midi audio/x-midi", Mime.mk ".midi" "audio/midi audio/x-midi", Mime.mk ".mjs" "text/javascript",
  Mime.mk ".mp3" "audio/mpeg", Mime.mk ".mpeg" "video/mpeg", Mime.mk ".mpkg" "application/vnd.apple.installer+xml",
  Mime.mk ".odp" "application/vnd.oasis.opendocument.presentation",
  Mime.mk ".ods" "application/vnd.oasis.opendocument.spreadsheet",
  Mime.mk ".odt" "application/vnd.oasis.opendocument.text",
  Mime.mk ".oga" "audio/ogg", Mime.mk ".ogv" "video/ogg", Mime.mk ".ogx" "application/ogg",
  Mime.mk ".opus" "audio/opus", Mime.mk ".otf" "font/otf", Mime.mk ".png" "image/png",
  Mime.mk ".pdf" "application/pdf", Mime.mk ".php" "application/x-httpd-php", Mime.mk ".ppt" "application/vnd.ms-powerpoint",
  Mime.mk ".pptx" "application/vnd.openxmlformats-officedocument.presentationml.presentation",
  Mime.mk ".rar" "application/vnd.rar", Mime.mk ".rtf" "application/rtf", Mime.mk ".sh" "application/x-sh",
  Mime.mk ".svg" "image/svg+xml", Mime.mk ".swf" "application/x-shockwave-flash", Mime.mk ".tar" "application/x-tar",
  Mime.mk ".tif" "image/tiff", Mime.mk ".tiff" "image/tiff", Mime.mk ".ts" "video/mp2t",
  Mime.mk ".ttf" "font/ttf", Mime.mk ".txt" "text/plain", Mime.mk ".vsd" "application/vnd.visio",
  Mime.mk ".wav" "audio/wav", Mime.mk ".weba" "audio/webm", Mime.mk ".webm" "video/webm",
  Mime.mk ".webp" "image/webp", Mime.mk ".woff" "font/woff", Mime.mk ".woff2" "font/woff2",
  Mime.mk ".xhtml" "application/xhtml+xml", Mime.mk ".xls" "application/vnd.ms-excel",
  Mime.mk ".xlsx" "application/vnd.openxmlformats-officedocument.spreadsheetml.sheet",
  Mime.mk ".xml" "application/xml", Mime.mk ".xul" "application/vnd.mozilla.xul+xml", Mime.mk ".zip" "application/zip",
  Mime.mk ".3gp" "video/3gpp", Mime.mk ".3g2" "video/3gpp2", Mime.mk ".7z" "application/x-7z-compressed"]

/-- `strings.HasSuffix(s, suffix)`. -/
def hasSuffix (s suffix : String) : Bool := suffix.toList.isSuffixOf s.toList

/-- `strings.Contains(s, substr)`: `substr` starts at some position of `s`. -/
def contains (s substr : String) : Bool := s.toList.tails.any fun t => substr.toList.isPrefixOf t

/-- `matchMimeType(filePath)`: the first entry whose extension ends the path. -/
def matchMimeType (filePath : String) : String :=
  match mimeTypes.find? fun mt => hasSuffix filePath mt.extension with
  | some mt => mt.mime
  | none => ""

/-- `mimeIsPhoto(mime)`. -/
def mimeIsPhoto (mime : String) : Bool :=
  "image/".toList.isPrefixOf mime.toList && !contains mime "image/webp"

/-- What `resolveMimeType` meets on disk: `os.Open` fails, or the first `Read` into the
512-byte buffer fails (an empty file gives `io.EOF`), or it reads these bytes. -/
inductive FileRead where
  | openFailed
  | readFailed
  | read (bytes : List UInt8)
  deriving DecidableEq, Repr

/-- The buffer `http.DetectContentType` sniffs: `make([]byte, 512)` with what `Read` put
at its front; the rest stays zero. -/
def sniffBuffer (bytes : List UInt8) : List UInt8 :=
  bytes.take 512 ++ List.replicate (512 - bytes.length) 0

/-- `resolveMimeType(filePath)`, with `http.DetectContentType` as `detect`. When `os.Open`
fails and no extension matches, `file` is nil and its `Read` returns `ErrInvalid`. -/
def resolveMimeType (detect : List UInt8 → String) (filePath : String) (file : FileRead) :
    String × Bool :=
  match file with
  | .openFailed =>
      let m := matchMimeType filePath
      if m ≠ "" then (m, mimeIsPhoto m) else ("", false)
  | .readFailed => ("", false)
  | .read bytes =>
      let mime := detect (sniffBuffer bytes)
      (mime, mimeIsPhoto mime)

/-! ## A dot and then no dot -/

/-- The text is a dot and then no dot, as every extension of the table is. -/
def dotted : List Char → Bool
  | '.' :: r => !r.contains '.'
  | _ => false

theorem dotted_iff {e : List Char} : dotted e = true ↔ ∃ r, e = '.' :: r ∧ '.' ∉ r := by
  match e with
  | [] => simp [dotted]
  | c :: r =>
    by_cases hc : c = '.'
    · subst hc
      simp [dotted]
    · simp [dotted, hc]

theorem mimeTypes_dotted : ∀ mt ∈ mimeTypes, dotted mt.extension.toList = true := by decide

/-- A dotted text ends `pre ++ '.' :: r`, where `r` has no dot, only when it is `'.' :: r`. -/
theorem dotted_suffix_iff {e : List Char} (he : dotted e = true) {r : List Char} (hr : '.' ∉ r)
    (pre : List Char) : e <:+ pre ++ '.' :: r ↔ e = '.' :: r := by
  obtain ⟨e', rfl, he'⟩ := dotted_iff.mp he
  refine ⟨fun h => ?_, fun h => h ▸ List.suffix_append _ _⟩
  rcases le_total (e'.length + 1) (r.length + 1) with hle | hle
  · rcases List.suffix_cons_iff.mp (List.suffix_of_suffix_length_le h (List.suffix_append pre _)
      (by simpa using hle)) with h' | h'
    · exact h'
    · exact absurd (h'.subset (List.mem_cons_self _ _)) hr
  · rcases List.suffix_cons_iff.mp (List.suffix_of_suffix_length_le (List.suffix_append pre _) h
      (by simpa using hle)) with h' | h'
    · exact h'.symm
    · exact absurd (h'.subset (List.mem_cons_self _ _)) he'

/-! ## The first match -/

theorem find?_congr_mem {α : Type} {p q : α → Bool} :
    ∀ {l : List α}, (∀ x ∈ l, p x = q x) → l.find? p = l.find? q
  | [], _ => rfl
  | a :: l, h => by
    rw [List.find?_cons, List.find?_cons, h a (List.mem_cons_self a l),
      find?_congr_mem fun x hx => h x (List.mem_cons_of_mem a hx)]

theorem hasSuffix_iff (s suffix : String) : hasSuffix s suffix = true ↔ suffix.toList <:+ s.toList :=
  List.isSuffixOf_iff_suffix

/-- An entry matches a path exactly when its extension is the text from the path's last
dot. -/
theorem hasSuffix_entry {mt : Mime} (hmt : mt ∈ mimeTypes) (pre : List Char) {r : List Char}
    (hr : '.' ∉ r) : hasSuffix ⟨pre ++ '.' :: r⟩ mt.extension = decide (mt.extension.toList = '.' :: r) := by
  rw [Bool.eq_iff_iff, hasSuffix_iff, decide_eq_true_iff]
  exact dotted_suffix_iff (mimeTypes_dotted mt hmt) hr pre

/-- `matchMimeType` reads only the text from the last dot. -/
theorem matchMimeType_append_dot (pre r : List Char) (hr : '.' ∉ r) :
    matchMimeType ⟨pre ++ '.' :: r⟩ = matchMimeType ⟨'.' :: r⟩ := by
  unfold matchMimeType
  rw [find?_congr_mem fun mt hmt => (hasSuffix_entry hmt pre hr).trans
    (hasSuffix_entry hmt [] hr).symm]
  rfl

/-- **An unopenable file is typed by its last extension.** When `os.Open` fails,
`resolveMimeType` answers for a path what it answers for the text from the path's last dot,
whatever the sniffer: the directories, the name and any inner extension play no part. -/
theorem unopened_reads_last_extension (detect detect' : List UInt8 → String) (pre r : List Char)
    (hr : '.' ∉ r) :
    resolveMimeType detect ⟨pre ++ '.' :: r⟩ .openFailed = resolveMimeType detect' ⟨'.' :: r⟩ .openFailed := by
  simp only [resolveMimeType, matchMimeType_append_dot pre r hr]

theorem unopened_archive_reads_gz :
    '.' ∉ "gz".toList ∧
      resolveMimeType (fun _ => "") ⟨"logs.tar".toList ++ '.' :: "gz".toList⟩ .openFailed =
        resolveMimeType (fun _ => "") ⟨'.' :: "gz".toList⟩ .openFailed :=
  ⟨by decide, unopened_reads_last_extension _ _ _ _ (by decide)⟩

/-! ## What the table says -/

/-- Each entry, looked up by its own extension, gives its own type, which is not empty. -/
theorem mimeTypes_consistent :
    ∀ mt ∈ mimeTypes, matchMimeType mt.extension = mt.mime ∧ mt.mime ≠ "" := by decide

/-- **The first match does not depend on the table's order**: every entry whose extension
ends a path gives what `matchMimeType` returns for it. -/
theorem matchMimeType_of_any_entry (filePath : String) {mt : Mime} (hmt : mt ∈ mimeTypes)
    (h : hasSuffix filePath mt.extension = true) : matchMimeType filePath = mt.mime := by
  obtain ⟨e, he, hne⟩ := dotted_iff.mp (mimeTypes_dotted mt hmt)
  obtain ⟨pre, hpre⟩ := (hasSuffix_iff _ _).mp h
  obtain ⟨s⟩ := filePath
  obtain ⟨x⟩ := mt
  simp only at he hpre ⊢
  subst hpre
  rw [he, matchMimeType_append_dot pre e hne, ← he]
  exact (mimeTypes_consistent _ hmt).1

theorem seven_zip_second_entry :
    Mime.mk ".7z" "application/x-7z-compressed" ∈ mimeTypes ∧
      hasSuffix "backup.tar.7z" ".7z" = true ∧
      matchMimeType "backup.tar.7z" = "application/x-7z-compressed" :=
  ⟨by decide, by decide, @matchMimeType_of_any_entry "backup.tar.7z" (.mk ".7z" "application/x-7z-compressed")
    (by decide) (by decide)⟩

/-! ## Photos -/

/-- The extensions whose type `mimeIsPhoto` accepts: the `image/` entries but `.webp`. -/
def photoExtensions : List String :=
  [".bmp", ".gif", ".ico", ".jpeg", ".jpg", ".png", ".svg", ".tif", ".tiff"]

theorem mimeTypes_photo : ∀ mt ∈ mimeTypes, mimeIsPhoto mt.mime = decide (mt.extension ∈ photoExtensions) := by
  decide

theorem photoExtensions_listed : ∀ x ∈ photoExtensions, matchMimeType x ≠ "" := by decide

/-- `matchMimeType` finds nothing, or an entry that ends the path. -/
theorem matchMimeType_cases (s : String) :
    matchMimeType s = "" ∨ ∃ mt ∈ mimeTypes, hasSuffix s mt.extension = true ∧ matchMimeType s = mt.mime := by
  unfold matchMimeType
  cases h : mimeTypes.find? fun mt => hasSuffix s mt.extension with
  | none => exact .inl rfl
  | some mt => exact .inr ⟨mt, List.mem_of_find?_eq_some h, List.find?_some (p := fun mt : Mime => hasSuffix s mt.extension) h, rfl⟩

/-- **Which unopenable files are photos.** When `os.Open` fails, `resolveMimeType` marks
the file as a photo exactly when the text from its last dot is `.bmp`, `.gif`, `.ico`,
`.jpeg`, `.jpg`, `.png`, `.svg`, `.tif` or `.tiff`, whatever comes before it. -/
theorem unopened_photo_iff (detect : List UInt8 → String) (pre r : List Char) (hr : '.' ∉ r) :
    (resolveMimeType detect ⟨pre ++ '.' :: r⟩ .openFailed).2 = true ↔ ⟨'.' :: r⟩ ∈ photoExtensions := by
  simp only [resolveMimeType, matchMimeType_append_dot pre r hr]
  rcases matchMimeType_cases ⟨'.' :: r⟩ with h | ⟨mt, hmt, hs, h⟩
  · simp only [h, ne_eq, not_true_eq_false, if_false, Bool.false_eq_true, false_iff]
    exact fun hx => photoExtensions_listed _ hx h
  · have hext : mt.extension = ⟨'.' :: r⟩ := by
      have := hasSuffix_entry hmt [] hr
      rw [List.nil_append, hs] at this
      exact String.ext (of_decide_eq_true this.symm)
    rw [h, if_pos (mimeTypes_consistent mt hmt).2, ← hext, mimeTypes_photo mt hmt, decide_eq_true_iff]

theorem unopened_jpg_is_photo :
    '.' ∉ "jpg".toList ∧
      ((resolveMimeType (fun _ => "") ⟨"cat".toList ++ '.' :: "jpg".toList⟩ .openFailed).2 = true ↔
        ⟨'.' :: "jpg".toList⟩ ∈ photoExtensions) :=
  ⟨by decide, unopened_photo_iff _ _ _ (by decide)⟩

end Gogram.Telegram
