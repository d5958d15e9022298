import Stencil.Value.Basic

/-!
What context references resolve to as mappings, for tools that read them.
-/

namespace Stencil.Context

def Content.toValue (c : Content) : Value :=
  .ofBindings
    [("mime_type", .text c.mimeType), ("text", .ofOptText c.text),
     ("data_url", .ofOptText c.dataUrl), ("as_text", .text c.asText)]

def Result.toValue (r : Result) : Value :=
  .ofBindings
    [("path", .text r.path), ("success", .bool r.success),
     ("failure", .ofOptText (r.failure.map (·.word))), ("error", .ofOptText r.error),
     ("content", (r.content.map Content.toValue).getD .null)]

end Stencil.Context
