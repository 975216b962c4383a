import TvmGraphRuntime.Basic
import TvmGraphRuntime.Tensor
import TvmGraphRuntime.Graph
import TvmGraphRuntime.Json
import TvmGraphRuntime.Load
import TvmGraphRuntime.Storage
import TvmGraphRuntime.OpExecs
import TvmGraphRuntime.Run
import TvmGraphRuntime.Params
import TvmGraphRuntime.Executor
import TvmGraphRuntime.InputSlots
import TvmGraphRuntime.Bounds
import TvmGraphRuntime.Dataflow
import TvmGraphRuntime.Rerun
import TvmGraphRuntime.LoadSpec
import TvmGraphRuntime.Print
import TvmGraphRuntime.Inference
import TvmGraphRuntime.ParamsFile
import TvmGraphRuntime.Writer
import TvmGraphRuntime.Session
import TvmGraphRuntime.Debug
