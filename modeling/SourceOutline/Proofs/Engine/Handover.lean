import SourceOutline.Proofs.Engine.Runs
import SourceOutline.Proofs.FileTree.Staging

/-! How a source is handed over to the engine: through a file that stands beside all others, holds the source
and is taken away again, however the engine behaves. -/

namespace SourceOutline

namespace Disk

end Disk

namespace Engine

end Engine

end SourceOutline
