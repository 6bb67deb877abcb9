import UCloudSandboxes.Machine.Basic
import UCloudSandboxes.Machine.Bytes
import UCloudSandboxes.Machine.Keyed

/-! A pack holds its chunks' bytes, then a footer sorted by chunk id and a trailer. -/
namespace UCloudSandboxes.Chunks
open List Machine Nat

def maxPackBytes : Nat := 64 * 1024 ^ 2
def chunkBytes : Nat := 256 * 1024
def maxClen : Nat := chunkBytes + 4096
def raw : Nat := 0
def zstd : Nat := 1
def headerSize : Nat := 16
def entrySize : Nat := 49
def trailerSize : Nat := 48
def packMagic : Bytes := [85,67,80,75].map byte
def trailerMagic : Bytes := [85,67,80,84].map byte

structure PackEntry where
  id : Bytes
  offset : Nat
  clen : Nat
  ulen : Nat
  flags : Nat
deriving DecidableEq

namespace PackEntry

/-- As `struct` packs it: the id cut or filled to 32 bytes, three words, a byte, four of padding. -/
def pack (e : PackEntry) : Bytes :=
  (e.id ++ zeros 32).take 32 ++ packUint 4 e.offset ++ packUint 4 e.clen ++
    packUint 4 e.ulen ++ packUint 1 e.flags ++ zeros 4

def packable (e : PackEntry) : Bool :=
  e.offset < 256 ^ 4 ∧ e.clen < 256 ^ 4 ∧ e.ulen < 256 ^ 4 ∧ e.flags < 256 ^ 1

def unpack (bytes : Bytes) : PackEntry where
  id := slice bytes 0 32
  offset := unpackUint (slice bytes 32 4)
  clen := unpackUint (slice bytes 36 4)
  ulen := unpackUint (slice bytes 40 4)
  flags := unpackUint (slice bytes 44 1)

def iterUnpack : Nat → Bytes → List PackEntry
  | 0, _ => []
  | n + 1, bytes => unpack (bytes.take entrySize) :: iterUnpack n (bytes.drop entrySize)

def sortKey (e : PackEntry) : Bytes ×ₗ Nat ×ₗ Nat ×ₗ Nat ×ₗ Nat :=
  toLex (e.id,toLex (e.offset,toLex (e.clen,toLex (e.ulen,e.flags))))

def stop (e : PackEntry) : Nat := e.offset + e.clen

def Apart (a b : PackEntry) : Prop := a.stop ≤ b.offset ∨ b.stop ≤ a.offset

/-- The bounds of a footer's entry, apart from where the one before it ends. -/
def valid (dataEnd : Nat) (e : PackEntry) : Bool :=
  e.stop ≤ dataEnd ∧ (e.flags = raw ∨ e.flags = zstd) ∧ (0 < e.ulen ∧ e.ulen ≤ chunkBytes) ∧
    (0 < e.clen ∧ e.clen ≤ maxClen) ∧ (e.flags = raw → e.clen = e.ulen)

def checked (dataEnd : Nat) : Nat → List PackEntry → Bool
  | _, [] => true
  | start, e :: rest => start ≤ e.offset && e.valid dataEnd && checked dataEnd e.stop rest

end PackEntry
open PackEntry

def packTrailer (sha256 : Bytes → Bytes) (footer : Bytes) (count : Nat) : Bytes :=
  packUint 8 footer.length ++ packUint 4 count ++ (sha256 footer ++ zeros 32).take 32 ++
    trailerMagic

def parsePackTail (sha256 : Bytes → Bytes) (tail : Bytes) (packSize : Nat) :
    Except String (Option (List PackEntry)) :=
  if tail.length < trailerSize ∨ ¬(0 < packSize ∧ packSize ≤ maxPackBytes) ∨
      packSize < tail.length then .error "invalid pack tail"
  else
    let trailer := tail.drop (tail.length - trailerSize)
    let footerLen := unpackUint (slice trailer 0 8)
    let count := unpackUint (slice trailer 8 4)
    let dataEnd := packSize - footerLen - trailerSize
    if slice trailer 44 4 ≠ trailerMagic ∨ footerLen ≠ count * entrySize ∨ dataEnd < headerSize then
      .error "invalid pack trailer"
    else if tail.length < footerLen + trailerSize then .ok none
    else
      let footer := slice tail (tail.length - trailerSize - footerLen) footerLen
      let entries := iterUnpack count footer
      if sha256 footer ≠ slice trailer 12 32 then .error "pack footer digest mismatch"
      else if ¬entries.IsChain (·.id < ·.id) then .error "pack footer is not sorted by chunk id"
      else if !checked dataEnd headerSize (entries.mergeSort (·.offset ≤ ·.offset)) then
        .error "invalid pack footer entry"
      else .ok (some entries)

structure Chunk where
  id : Bytes
  payload : Bytes
  ulen : Nat
  flags : Nat
deriving DecidableEq

structure PackWriter where
  entries : List PackEntry := []
  data : Nat := 0
  stream : Bytes := packMagic ++ packUint 2 1 ++ packUint 2 0 ++ zeros 8

structure Pack where
  file : Bytes
  digest : Bytes
  size : Nat

namespace PackWriter

def size (w : PackWriter) : Nat := headerSize + w.data

def fits (w : PackWriter) (clen : Nat) : Bool :=
  w.size + clen + (w.entries.length + 1) * entrySize + trailerSize ≤ maxPackBytes

def add (w : PackWriter) (c : Chunk) : Except String PackWriter :=
  if !w.fits c.payload.length ∨ ¬(c.flags = raw ∨ c.flags = zstd) ∨
      c.flags = raw ∧ c.payload.length ≠ c.ulen then .error "chunk does not fit this pack"
  else .ok {
    entries := w.entries ++ [⟨c.id,w.size,c.payload.length,c.ulen,c.flags⟩]
    data := w.data + c.payload.length
    stream := w.stream ++ c.payload }

def addAll : PackWriter → List Chunk → Except String PackWriter
  | w, [] => .ok w
  | w, c :: rest => w.add c >>= (·.addAll rest)

def footer (w : PackWriter) : List PackEntry := w.entries.mergeSort (sortKey · ≤ sortKey ·)

def finish (sha256 : Bytes → Bytes) (w : PackWriter) : Except String Pack :=
  if !w.entries.all packable then .error "argument out of range"
  else
    let footer := w.footer.flatMap pack
    let file := w.stream ++ (footer ++ packTrailer sha256 footer w.entries.length)
    .ok ⟨file,sha256 file,w.size + footer.length + trailerSize⟩

end PackWriter

namespace PackEntry

@[simp]
theorem length_pack (e : PackEntry) : e.pack.length = entrySize := by
  simp [pack,entrySize]

theorem unpack_pack {e} (hid : e.id.length = 32) (h : e.packable = true) : unpack e.pack = e := by
  obtain ⟨ho,hc,hu,hf⟩ := of_decide_eq_true h
  have hbytes : (e.id ++ zeros 32).take 32 = e.id := take_left' hid
  rw [pack,hbytes,unpack]
  simp only [append_assoc,slice_left,slice_right,hid,length_packUint,le_refl,reduceLeDiff,
    reduceSub,Nat.sub_self,unpackUint_packUint ho,unpackUint_packUint hc,unpackUint_packUint hu,
    unpackUint_packUint hf]

theorem iterUnpack_flatMap {es : List PackEntry}
    (h : ∀ e ∈ es, e.id.length = 32 ∧ e.packable = true) :
    iterUnpack es.length (es.flatMap pack) = es := by
  induction es with
  | nil => rfl
  | cons e es ih =>
    obtain ⟨⟨hid,hp⟩,h⟩ := forall_mem_cons.mp h
    rw [length_cons,flatMap_cons,iterUnpack,take_left' e.length_pack,drop_left' e.length_pack,ih h,
      unpack_pack hid hp]

theorem length_footer (es : List PackEntry) : (es.flatMap pack).length = es.length * entrySize := by
  simp [length_flatMap]

theorem length_iterUnpack (count bytes) : (iterUnpack count bytes).length = count := by
  induction count generalizing bytes with
  | zero => rfl
  | succ count ih => rw [iterUnpack,length_cons,ih]

theorem checked_iff {dataEnd start es} : checked dataEnd start es = true ↔
    (∀ e ∈ es, start ≤ e.offset ∧ e.valid dataEnd = true) ∧ es.Pairwise (·.stop ≤ ·.offset) := by
  induction es generalizing start with
  | nil => simp [checked]
  | cons e es ih =>
    have hle : e.offset ≤ e.stop := Nat.le_add_right ..
    simp only [checked,Bool.and_eq_true,decide_eq_true_eq,ih,forall_mem_cons,pairwise_cons]
    constructor
    · rintro ⟨he,hes,hp⟩
      exact ⟨⟨he,fun b hb => ⟨he.1.trans (hle.trans (hes b hb).1),(hes b hb).2⟩⟩,
        fun b hb => (hes b hb).1,hp⟩
    · rintro ⟨⟨he,hes⟩,hstop,hp⟩
      exact ⟨he,fun b hb => ⟨hstop b hb,(hes b hb).2⟩,hp⟩

theorem pairwise_sorted {β} [LinearOrder β] (key : PackEntry → β) (es : List PackEntry) :
    (es.mergeSort (key · ≤ key ·)).Pairwise (key · ≤ key ·) := by
  refine (pairwise_mergeSort ?_ ?_ es).imp of_decide_eq_true
  · intro a b c hab hbc
    simpa using le_trans (of_decide_eq_true hab) (of_decide_eq_true hbc)
  · intro a b
    simpa using le_total (key a) (key b)

theorem checked_sorted {dataEnd} {es : List PackEntry} :
    checked dataEnd headerSize (es.mergeSort (·.offset ≤ ·.offset)) = true ↔
      (∀ e ∈ es, headerSize ≤ e.offset ∧ e.valid dataEnd = true) ∧ es.Pairwise Apart := by
  have hperm := mergeSort_perm es (·.offset ≤ ·.offset)
  have hapart := hperm.pairwise_iff fun {a b} (h : Apart a b) => h.symm
  rw [checked_iff,← hapart]
  simp only [hperm.mem_iff]
  refine and_congr_right fun h => ⟨fun hp => hp.imp .inl,fun hp => ?_⟩
  refine (hp.and (pairwise_sorted offset es)).imp_of_mem fun _ hb hab => ?_
  obtain ⟨-,-,-,hpos,-⟩ := of_decide_eq_true (h _ (hperm.mem_iff.mp hb)).2
  obtain ⟨hap | hap,hle⟩ := hab
  · exact hap
  · unfold stop at *
    omega

end PackEntry

structure Footer (dataEnd : Nat) (es : List PackEntry) : Prop where
  sorted : es.Pairwise (·.id < ·.id)
  checks : (∀ e ∈ es, headerSize ≤ e.offset ∧ e.valid dataEnd = true) ∧ es.Pairwise Apart

variable {sha256 : Bytes → Bytes}

theorem parsePackTail_ok {tail packSize es} (h : parsePackTail sha256 tail packSize = .ok (some es)) :
    Footer (packSize - es.length * entrySize - trailerSize) es := by
  unfold parsePackTail at h
  obtain ⟨-,h⟩ := of_guard h nofun
  obtain ⟨htrailer,h⟩ := of_guard h nofun
  obtain ⟨-,h⟩ := of_guard h nofun
  obtain ⟨-,h⟩ := of_guard h nofun
  obtain ⟨hsorted,h⟩ := of_guard h nofun
  obtain ⟨hchecked,h⟩ := of_guard h nofun
  cases h
  simp only [not_or,not_not] at htrailer
  refine ⟨isChain_iff_pairwise.mp (not_not.mp hsorted),?_⟩
  rw [length_iterUnpack,← htrailer.2.1,← checked_sorted]
  simpa using hchecked

theorem length_packTrailer (footer count) : (packTrailer sha256 footer count).length = trailerSize := by
  simp [packTrailer,trailerSize,trailerMagic]

theorem packTrailer_fields (hsha : ∀ bytes, (sha256 bytes).length = 32) {footer count}
    (hlen : footer.length < 256 ^ 8) (hcount : count < 256 ^ 4) :
    let trailer := packTrailer sha256 footer count
    unpackUint (slice trailer 0 8) = footer.length ∧ unpackUint (slice trailer 8 4) = count ∧
      slice trailer 12 32 = sha256 footer ∧ slice trailer 44 4 = trailerMagic := by
  have hdigest : (sha256 footer ++ zeros 32).take 32 = sha256 footer := take_left' (hsha footer)
  have hmagic : slice trailerMagic 0 4 = trailerMagic := rfl
  simp only [packTrailer,hdigest,append_assoc,slice_left,slice_right,hsha,length_packUint,le_refl,
    reduceLeDiff,reduceSub,Nat.sub_self,unpackUint_packUint hlen,unpackUint_packUint hcount,
    hmagic,true_and]

/-- Any tail that covers the footer reads it back, if its entries pass the checks. -/
theorem parsePackTail_of_footer (hsha : ∀ bytes, (sha256 bytes).length = 32) {dataEnd es}
    (hf : Footer dataEnd es) (hpack : ∀ e ∈ es, e.id.length = 32 ∧ e.packable = true)
    (hmax : dataEnd + es.length * entrySize + trailerSize ≤ maxPackBytes)
    (hend : headerSize ≤ dataEnd) {front : Bytes} (hfront : front.length ≤ dataEnd) :
    let footer := es.flatMap pack
    parsePackTail sha256 (front ++ (footer ++ packTrailer sha256 footer es.length))
      (dataEnd + footer.length + trailerSize) = .ok (some es) := by
  intro footer
  have hlen : footer.length = es.length * entrySize := length_footer es
  have hes : iterUnpack es.length footer = es := iterUnpack_flatMap hpack
  have hsmall : footer.length < 256 ^ 8 ∧ es.length < 256 ^ 4 := by
    unfold maxPackBytes entrySize at *
    omega
  obtain ⟨hl,hc,hd,hm⟩ := packTrailer_fields hsha hsmall.1 hsmall.2
  have htrailer : (packTrailer sha256 footer es.length).length = trailerSize := length_packTrailer ..
  generalize packTrailer sha256 footer es.length = trailer at *
  have htail : (front ++ (footer ++ trailer)).length = front.length + footer.length + trailerSize := by
    simp [htrailer,Nat.add_assoc]
  have hdrop : (front ++ (footer ++ trailer)).drop (front.length + footer.length) = trailer := by
    simp [drop_append]
  have hslice : slice (front ++ (footer ++ trailer)) front.length footer.length = footer := by
    simp [slice]
  have hdata : dataEnd + footer.length + trailerSize - footer.length - trailerSize = dataEnd := by
    omega
  unfold parsePackTail
  simp only [htail,Nat.add_sub_cancel,hdrop,hl,hc,hd,hm,hslice,hes,hdata]
  rw [if_neg (by unfold trailerSize at *; omega),if_neg (by simp [hlen,hend]),if_neg (by omega),
    if_neg (by simp),if_neg (not_not.mpr (isChain_iff_pairwise.mpr hf.sorted)),if_neg ?_]
  rw [Bool.not_eq_true',Bool.not_eq_false]
  exact checked_sorted.mpr hf.checks

def PackEntry.chunk (file : Bytes) (e : PackEntry) : Chunk :=
  ⟨e.id,slice file e.offset e.clen,e.ulen,e.flags⟩

/-- A chunk named by a digest, with sizes within the bounds of the format. -/
structure Chunk.Bounded (c : Chunk) : Prop where
  id : c.id.length = 32
  ulen : 0 < c.ulen ∧ c.ulen ≤ chunkBytes
  clen : 0 < c.payload.length ∧ c.payload.length ≤ maxClen

namespace PackWriter
variable {w w' : PackWriter} {chunks : List Chunk} {c : Chunk}

structure Written (w : PackWriter) (chunks : List Chunk) : Prop where
  length : w.stream.length = w.size
  fits : w.size + w.entries.length * entrySize + trailerSize ≤ maxPackBytes
  chunks : w.entries.map (chunk w.stream) = chunks
  inside : ∀ e ∈ w.entries, headerSize ≤ e.offset ∧ e.stop ≤ w.size ∧
    (e.flags = raw ∨ e.flags = zstd) ∧ (e.flags = raw → e.clen = e.ulen)
  ordered : w.entries.Pairwise (·.stop ≤ ·.offset)

theorem Written.map_chunk (h : w.Written chunks) (more) :
    w.entries.map (chunk (w.stream ++ more)) = chunks := by
  rw [← h.chunks]
  refine map_congr_left fun e he => ?_
  rw [chunk,slice_append (h.length ▸ (h.inside e he).2.1)]
  rfl

theorem Written.add (h : w.Written chunks) (ha : w.add c = .ok w') : w'.Written (chunks ++ [c]) := by
  obtain ⟨hok,ha⟩ := of_guard ha nofun
  cases ha
  rw [not_or,not_or,not_not,Bool.not_eq_true',Bool.not_eq_false,not_and,not_ne_iff] at hok
  obtain ⟨hfits,hflags,hraw⟩ := hok
  have hfits := of_decide_eq_true hfits
  have hlen := h.length
  have hsize : w.size = headerSize + w.data := rfl
  constructor
  · simp only [length_append,hlen,size,Nat.add_assoc]
  · simp only [size,length_append,length_singleton] at hfits ⊢
    omega
  · have hnew : slice (w.stream ++ c.payload) w.size c.payload.length = c.payload := by
      rw [slice,← hlen,drop_left,take_length]
    rw [map_append,h.map_chunk,map_singleton,chunk,hnew]
  · intro e he
    rcases mem_append.mp he with he | he
    · obtain ⟨hs,hstop,hok⟩ := h.inside e he
      exact ⟨hs,hstop.trans (by simp only [size]; omega),hok⟩
    · cases mem_singleton.mp he
      exact ⟨Nat.le_add_right ..,by simp only [stop,size]; omega,hflags,hraw⟩
  · refine pairwise_append.mpr ⟨h.ordered,pairwise_singleton ..,fun e he b hb => ?_⟩
    cases mem_singleton.mp hb
    exact (h.inside e he).2.1

theorem Written.addAll {rest} (h : w.Written chunks) (ha : w.addAll rest = .ok w') :
    w'.Written (chunks ++ rest) := by
  induction rest generalizing w chunks with
  | nil =>
    cases ha
    rwa [append_nil]
  | cons c rest ih =>
    obtain ⟨w₁,h₁,ha⟩ := ok_of_bind_ok ha
    rw [append_cons]
    exact ih (h.add h₁) ha

theorem written_start : Written {} [] where
  length := rfl
  fits := by decide
  chunks := rfl
  inside := nofun
  ordered := .nil

theorem Written.valid (h : w.Written chunks) (hc : ∀ c ∈ chunks, c.Bounded) {e} (he : e ∈ w.entries) :
    (e.id.length = 32 ∧ e.packable = true) ∧ headerSize ≤ e.offset ∧ e.valid w.size = true := by
  obtain ⟨hoffset,hstop,hflags,hraw⟩ := h.inside e he
  obtain ⟨hid,hulen,hclen⟩ := hc (e.chunk w.stream) (h.chunks ▸ mem_map_of_mem he)
  have hlen : (e.chunk w.stream).payload.length = e.clen := by
    rw [stop,← h.length] at hstop
    simp only [chunk,slice,length_take,length_drop]
    omega
  rw [hlen] at hclen
  refine ⟨⟨hid,decide_eq_true ?_⟩,hoffset,decide_eq_true ⟨hstop,hflags,hulen,hclen,hraw⟩⟩
  have hfits := h.fits
  have hu : e.ulen ≤ chunkBytes := hulen.2
  simp only [stop,maxPackBytes,chunkBytes,raw,zstd] at *
  omega

theorem Written.footer (h : w.Written chunks) (hc : ∀ c ∈ chunks, c.Bounded)
    (hids : (chunks.map (·.id)).Nodup) : Footer w.size w.footer := by
  have hperm : w.footer ~ w.entries := mergeSort_perm ..
  have hne : (w.footer.map (·.id)).Nodup := by
    rw [← h.chunks,map_map] at hids
    exact (hperm.map _).nodup_iff.mpr hids
  refine ⟨((pairwise_sorted sortKey w.entries).and (pairwise_map.mp hne)).imp fun hab => ?_,
    fun e he => (h.valid hc (hperm.mem_iff.mp he)).2,?_⟩
  · exact lt_of_le_of_ne (Prod.Lex.monotone_fst _ _ hab.1) hab.2
  · exact (hperm.pairwise_iff Or.symm).mpr (h.ordered.imp .inl)

end PackWriter

/-- The footer names every chunk added and is read back from any tail that covers it; whatever is
read as a footer is sorted and disjoint within the data. -/
theorem pack_reads_back (sha256 : Bytes → Bytes) :
    (∀ chunks w, (∀ bytes, (sha256 bytes).length = 32) → PackWriter.addAll {} chunks = .ok w →
      (chunks.map (·.id)).Nodup → (∀ c ∈ chunks, c.Bounded) → ∃ pack, w.finish sha256 = .ok pack ∧
      pack.size = pack.file.length ∧ pack.size ≤ maxPackBytes ∧
      w.entries.map (chunk pack.file) = chunks ∧
      ∀ front tail, pack.file = front ++ tail → chunks.length * entrySize + trailerSize ≤ tail.length →
        ∃ entries, parsePackTail sha256 tail pack.size = .ok (some entries) ∧ entries ~ w.entries) ∧
    ∀ tail packSize entries, parsePackTail sha256 tail packSize = .ok (some entries) →
      entries.Pairwise (·.id < ·.id) ∧ entries.Pairwise Apart ∧ ∀ e ∈ entries,
        headerSize ≤ e.offset ∧ e.stop ≤ packSize - entries.length * entrySize - trailerSize := by
  constructor
  · intro chunks w hsha hadd hids hc
    have hw : w.Written chunks := PackWriter.written_start.addAll hadd
    have hperm : w.footer ~ w.entries := mergeSort_perm ..
    have hlen : w.footer.length = chunks.length := by rw [hperm.length_eq,← hw.chunks,length_map]
    have hfits := hw.fits
    rw [← hperm.length_eq] at hfits
    refine ⟨_,if_neg (by simpa using fun e he => (hw.valid hc he).1.2),?_,?_,hw.map_chunk _,
      fun front tail heq hle => ⟨w.footer,?_,hperm⟩⟩
    · simp only [length_append,length_packTrailer,hw.length,Nat.add_assoc]
    · rwa [length_footer]
    · have hsum := congrArg length heq
      have hdrop := congrArg (drop front.length) heq
      simp only [length_append,length_packTrailer,length_footer,hlen] at hsum
      rw [drop_left,drop_append_of_le_length (by omega)] at hdrop
      rw [← hdrop,← hperm.length_eq]
      refine parsePackTail_of_footer hsha (hw.footer hc hids) (fun e he => ?_) hfits
        (Nat.le_add_right ..) ?_
      · exact (hw.valid hc (hperm.mem_iff.mp he)).1
      · rw [length_drop,hw.length]
        exact sub_le ..
  · intro tail packSize entries h
    obtain ⟨hsorted,hvalid,hapart⟩ := parsePackTail_ok h
    refine ⟨hsorted,hapart,fun e he => ⟨(hvalid e he).1,?_⟩⟩
    exact (of_decide_eq_true (hvalid e he).2).1

namespace Example

def chunks : List Chunk := [⟨replicate 32 (byte 2),zeros 1,1,raw⟩,⟨zeros 32,zeros 2,5,zstd⟩]

def digest (content : Bytes) : Bytes := replicate 32 (byte (content.foldr (·.val + ·) 0))

end Example

theorem pack_reads_back_two : ∃ w pack, PackWriter.addAll {} Example.chunks = .ok w ∧
    w.finish Example.digest = .ok pack ∧
    w.entries.map (chunk pack.file) = Example.chunks := by
  obtain ⟨pack,hpack,-,-,hchunks,-⟩ := (pack_reads_back Example.digest).1 Example.chunks _
    (fun _ => length_replicate) rfl (by decide) (by
      rintro _ (_ | ⟨_,_ | ⟨_,⟨⟩⟩⟩) <;> exact ⟨rfl,by decide,by decide⟩)
  exact ⟨_,pack,rfl,hpack,hchunks⟩

/-- `http_range` without a start: the last bytes, or all of a smaller object. -/
def suffix (file : Bytes) (n : Nat) : Bytes := file.drop (file.length - n)

/-- How much of a pack its trailer asks for. -/
def footerTail (tail : Bytes) : Nat := unpackUint (slice (suffix tail trailerSize) 0 8) + trailerSize

/-- One suffix read, two for a large footer. -/
def packEntries (sha256 : Bytes → Bytes) (stored : Option Bytes) (size : Nat) :
    Except String (Option (List PackEntry)) :=
  if stored.map length ≠ some size then .error "pack is not durable in the object store"
  else
    let reader n := if n = 0 then .error "invalid chunk store range" else .ok (suffix (stored.getD []) n)
    reader (min size (256 * 1024)) >>= fun tail => parsePackTail sha256 tail size >>= fun
      | some entries => .ok (some entries)
      | none => reader (footerTail tail) >>= (parsePackTail sha256 · size)

theorem parsePackTail_none {tail size} (h : parsePackTail sha256 tail size = .ok none) :
    trailerSize ≤ tail.length ∧ tail.length < footerTail tail ∧ footerTail tail ≤ size := by
  unfold parsePackTail at h
  obtain ⟨hlen,h⟩ := of_guard h nofun
  obtain ⟨htrailer,h⟩ := of_guard h nofun
  split at h
  · rename_i hshort
    simp only [not_or,not_lt,headerSize] at hlen htrailer
    exact ⟨hlen.1,hshort,by unfold footerTail suffix; omega⟩
  · obtain ⟨-,h⟩ := of_guard h nofun
    obtain ⟨-,h⟩ := of_guard h nofun
    obtain ⟨-,h⟩ := of_guard h nofun
    cases h

section Suffixes
variable {file : Bytes} {n : Nat} (hn : n ≤ file.length)
include hn

theorem length_suffix : (suffix file n).length = n := by
  rw [suffix,length_drop]
  omega

theorem drop_suffix {m} (hm : m ≤ n) : (suffix file n).drop (n - m) = suffix file m := by
  rw [suffix,suffix,drop_drop]
  congr 1
  omega

theorem footerTail_suffix (ht : trailerSize ≤ n) : footerTail (suffix file n) = footerTail file := by
  rw [footerTail,suffix,length_suffix hn,drop_suffix hn ht]
  rfl

theorem parsePackTail_suffix (ht : trailerSize ≤ n ∨ n = file.length)
    (h : parsePackTail sha256 (suffix file n) file.length ≠ .ok none) :
    parsePackTail sha256 (suffix file n) file.length = parsePackTail sha256 file file.length := by
  rcases ht with ht | rfl
  · have hfile : ∀ m, file.drop (file.length - m) = suffix file m := fun _ => rfl
    simp only [parsePackTail,length_suffix hn,drop_suffix hn ht,hfile] at h ⊢
    refine ite_congr (propext (by omega)) (fun _ => rfl) fun hsize => ite_congr rfl (fun _ => rfl)
      fun htrailer => ?_
    rw [if_neg (by omega),if_neg htrailer] at h
    generalize unpackUint (slice (suffix file trailerSize) 0 8) = len at *
    have hfooter : ¬n < len + trailerSize := fun hc => h (if_pos hc)
    have hdrop := drop_suffix hn (m := trailerSize + len) (by omega)
    rw [if_neg hfooter,if_neg (show ¬file.length < len + trailerSize by omega)]
    simp only [slice,Nat.sub_sub,hdrop,hfile]
  · rw [suffix,Nat.sub_self,drop_zero]

end Suffixes

/-- The reader of a stored pack answers what its whole content says, also after a second read. -/
theorem packEntries_reads_whole (sha256 : Bytes → Bytes) (first : Fin 256) (rest : Bytes) :
    let file := first :: rest
    packEntries sha256 (some file) file.length = parsePackTail sha256 file file.length ∧
      parsePackTail sha256 file file.length ≠ .ok none := by
  intro file
  have hpos : 0 < file.length := succ_pos _
  have hwhole : parsePackTail sha256 file file.length ≠ .ok none := fun h => by
    have hnone := parsePackTail_none h
    omega
  refine ⟨?_,hwhole⟩
  simp only [packEntries,Option.map_some,ne_eq,not_true,if_false,Option.getD_some]
  rw [if_neg (by omega)]
  change parsePackTail .. >>= _ = _
  generalize hn : min file.length (256 * 1024) = n
  have hle : n ≤ file.length := by omega
  have ht : trailerSize ≤ n ∨ n = file.length := by unfold trailerSize; omega
  by_cases hp : parsePackTail sha256 (suffix file n) file.length = .ok none
  · obtain ⟨htail,-,hsize⟩ := parsePackTail_none hp
    rw [length_suffix hle] at htail
    rw [footerTail_suffix hle htail] at hsize
    have hfooter : trailerSize ≤ footerTail file := Nat.le_add_left ..
    simp only [hp,bind,Except.bind,footerTail_suffix hle htail]
    rw [if_neg (hfooter.trans_lt' (by decide)).ne']
    refine parsePackTail_suffix hsize (.inl hfooter) fun hnone => ?_
    have hshort := (parsePackTail_none hnone).2.1
    rw [length_suffix hsize,footerTail_suffix hsize hfooter] at hshort
    exact hshort.false
  · rw [parsePackTail_suffix hle ht hp]
    cases hw : parsePackTail sha256 file file.length with
    | error => rfl
    | ok found =>
      cases found with
      | none => exact absurd hw hwhole
      | some => rfl

end UCloudSandboxes.Chunks
