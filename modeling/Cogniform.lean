import Cogniform.Assets.Store
import Cogniform.Assets.TangentWork
import Cogniform.Cli.ServeStdio
import Cogniform.Compiler.Encoding
import Cogniform.Compiler.Fits
import Cogniform.Engine.Delivery
import Cogniform.Engine.Pipeline
import Cogniform.Engine.Revert
import Cogniform.Executor.Completion
import Cogniform.Executor.Correlation
import Cogniform.Mcp.Base64
import Cogniform.Mcp.Nesting
import Cogniform.Observation.Codec
import Cogniform.World.LogicalHash
import Cogniform.World.Receipts
import Cogniform.World.Recompute
