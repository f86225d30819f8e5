import RenderLink.Main
import RenderLink.Proofs.Session
import RenderLink.Proofs.Hoist.Token
import RenderLink.Proofs.Hoist.Generated
import RenderLink.Proofs.CommandLine.Run
import RenderLink.Proofs.Formats
import RenderLink.Proofs.Output
import RenderLink.Proofs.Options.Handing
import RenderLink.Proofs.Options.Identity
import RenderLink.Proofs.Hoist.ByteSearch
import RenderLink.Proofs.CommandLine.AssetBase
import RenderLink.Proofs.CodeFrame.LineEndings
import RenderLink.Proofs.Bundle
import RenderLink.Proofs.Path.Normal
import RenderLink.Proofs.Path.Shortest
import RenderLink.Proofs.Hoist.PlainName
import RenderLink.Proofs.Options.InTurn
import RenderLink.Proofs.Hoist.Clean
import RenderLink.Proofs.CodeFrame.Gutter
import RenderLink.Proofs.CodeFrame.PastEnd
import RenderLink.Proofs.Hoist.Core
import RenderLink.Proofs.Hoist.NameSearch
