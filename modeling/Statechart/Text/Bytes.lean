import Statechart.Text.Basic
/-!
# Bytes — texts kept in files

A file holds bytes; it holds a text when they are UTF-8.
-/
namespace Statechart
namespace Text

/-- The text that bytes encode, if they are UTF-8. -/
def decode? (bytes : ByteArray) : Option Text := (String.fromUTF8? bytes).map String.toList

def encode (t : Text) : ByteArray := (String.ofList t).toUTF8

/-- **A text that is written is read again.** -/
theorem decode?_encode (t : Text) : decode? (encode t) = some t := by
  have hvalid : (String.ofList t).toUTF8.IsValidUTF8 := ⟨t, rfl⟩
  unfold decode? encode String.fromUTF8?
  rw [dif_pos hvalid, Option.map_some]
  exact congrArg some String.toList_ofList

theorem encode_inj {t u : Text} (h : encode t = encode u) : t = u := by
  have hdecoded := congrArg decode? h
  rwa [decode?_encode, decode?_encode, Option.some.injEq] at hdecoded

end Text
end Statechart
