import OpenApiIR.Load.Source

/-! What is loaded is a map. Every way to a document, from whichever source and in whichever format,
ends in the same test. -/

namespace OpenApiIR

namespace Load

/-- A load that, if it succeeds, brings a map. -/
def BringsMap (r : Loaded) : Prop := ∀ d, r = .ok d → d.graph.isMap d.root = true

variable (source : String)

theorem unforeseen_bringsMap (x : Defect) : BringsMap (.error (.unforeseen x)) := by
  intro d h
  cases h

theorem refuse_bringsMap (fault : LoadFault) : BringsMap (refuse source fault) := by
  intro d h
  cases h

theorem requireMap_bringsMap (d : Document) : BringsMap (requireMap source d) := by
  unfold requireMap
  split
  · rename_i hd
    intro d' h
    obtain rfl := Except.ok.inj h
    exact hd
  · exact refuse_bringsMap source _

theorem decodeYaml_bringsMap (yaml : YamlReader) (text : String) (json : Option Json.Error) :
    BringsMap (decodeYaml yaml source text json) := by
  unfold decodeYaml
  split
  · exact requireMap_bringsMap source _
  · exact refuse_bringsMap source _
  · exact unforeseen_bringsMap _

theorem decodeWith_bringsMap (yaml : YamlReader) (room : Nat) (hint : FormatHint) (text : String) :
    BringsMap (decodeWith yaml room hint source text) := by
  unfold decodeWith
  split
  · exact decodeYaml_bringsMap source yaml text none
  · split
    · exact requireMap_bringsMap source _
    · exact unforeseen_bringsMap _
    · split
      · exact refuse_bringsMap source _
      · exact decodeYaml_bringsMap source yaml text _

section Decoder

variable {decode : Decoder} (h : ∀ hint text, BringsMap (decode hint source text))

include h

theorem fromInput_bringsMap (input : Except InputFault String) :
    BringsMap (fromInput decode source input) := by
  unfold fromInput
  split
  · exact refuse_bringsMap source _
  · exact unforeseen_bringsMap _
  · split
    · exact refuse_bringsMap source _
    · exact h _ _

theorem fromReply_bringsMap (reply : Reply) : BringsMap (fromReply decode source reply) := by
  unfold fromReply
  split
  · exact refuse_bringsMap source _
  · exact unforeseen_bringsMap _
  · split
    · exact refuse_bringsMap source _
    · exact h _ _

theorem fromBytes_bringsMap (suffix : String) (bytes : List UInt8) :
    BringsMap (fromBytes decode source suffix bytes) := by
  unfold fromBytes
  split
  · exact refuse_bringsMap source _
  · split
    · exact refuse_bringsMap source _
    · exact h _ _

theorem fromFile_bringsMap (files : FileTree) : BringsMap (fromFile decode source files) := by
  unfold fromFile
  dsimp only
  split
  · exact unforeseen_bringsMap _
  · exact refuse_bringsMap source _
  · exact fromBytes_bringsMap source h _ _

end Decoder

end Load

theorem loadWith_bringsMap (yaml : Load.YamlReader) (w : World) (timeout : Binary64)
    (followRedirects : Bool) (source : String) :
    Load.BringsMap (loadWith yaml w timeout followRedirects source) := by
  have h := Load.decodeWith_bringsMap source yaml w.room
  unfold loadWith
  dsimp only
  split
  · exact Load.fromInput_bringsMap source h _
  · exact Load.fromReply_bringsMap source h _
  · exact Load.fromFile_bringsMap source h _

theorem load_bringsMap (w : World) (timeout : Binary64) (followRedirects : Bool) (source : String) :
    Load.BringsMap (load w timeout followRedirects source) :=
  loadWith_bringsMap _ w timeout followRedirects source

end OpenApiIR
